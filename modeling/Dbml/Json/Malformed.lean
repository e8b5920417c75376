/-!
# Malformed JSON

The ways in which a text fails to be JSON, each with its wording. A text may end
too early (`Malformed.isCut`) or go wrong where it stands.
-/

namespace Dbml.Json

inductive Malformed
  | cutValue
  | cutList
  | cutObject
  | cutString
  | noValue
  | noColon
  | noListSeparator
  | noObjectSeparator
  | misspelledWord
  | noKey
  | trailingComma
  | trailingCharacters
  | badNumber
  | numberOutOfRange
  | badEscape
  | unpairedSurrogate
  | loneSurrogate
  | controlCharacter
  | tooDeep
  deriving DecidableEq, Repr

namespace Malformed

/-- The text ends before the value does. -/
def isCut : Malformed → Bool
  | .cutValue | .cutList | .cutObject | .cutString => true
  | _ => false

def message : Malformed → String
  | .cutValue => "EOF while parsing a value"
  | .cutList => "EOF while parsing a list"
  | .cutObject => "EOF while parsing an object"
  | .cutString => "EOF while parsing a string"
  | .noValue => "expected value"
  | .noColon => "expected `:`"
  | .noListSeparator => "expected `,` or `]`"
  | .noObjectSeparator => "expected `,` or `\x7d`"
  | .misspelledWord => "expected ident"
  | .noKey => "key must be a string"
  | .trailingComma => "trailing comma"
  | .trailingCharacters => "trailing characters"
  | .badNumber => "invalid number"
  | .numberOutOfRange => "number out of range"
  | .badEscape => "invalid escape"
  | .unpairedSurrogate => "unexpected end of hex escape"
  | .loneSurrogate => "lone leading surrogate in hex escape"
  | .controlCharacter => "control character (\\u0000-\\u001F) found while parsing a string"
  | .tooDeep => "recursion limit exceeded"

end Malformed

/-- What is wrong with a piece of text that is no token: a value that is read
and one that is passed over may be told apart by it. -/
structure Broken where
  read : Malformed
  passed : Malformed
  deriving DecidableEq, Repr

/-- Wrong in the same way for a value that is read and one that is passed over. -/
def Broken.either (m : Malformed) : Broken := ⟨m, m⟩

end Dbml.Json
