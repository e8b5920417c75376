import Dbml.Text.CharTable

/-!
# Lower case

`lowercase` maps each character to its lower-case form, by the full Unicode
mapping. Two characters are special: a capital I with a dot becomes two
characters, and a capital sigma takes its final form after a cased character
and before none.
-/

namespace Dbml.Text

/-- The lower-case form of a single character, without regard to its
neighbours. -/
def lowerChar (c : Char) : Char :=
  if c.toNat < 128 then c.toLower else
    match lowercaseRuns.find? fun run =>
      run.first ≤ c.toNat && c.toNat ≤ run.last && (c.toNat - run.first) % run.stride == 0 with
    | some run => Char.ofNat (c.toNat + run.offset).toNat
    | none => c

/-- Whether the first character that is not passed over is cased. -/
def casedNext (cs : List Char) : Bool :=
  match cs.dropWhile caseIgnorable.contains with
  | [] => false
  | c :: _ => cased.contains c

/-- Lower-cases `cs`; `before` holds what precedes it, nearest first. -/
def lowercaseFrom (before : List Char) : List Char → List Char
  | [] => []
  | c :: cs =>
    let lower :=
      if c = 'Σ' then if casedNext before && !casedNext cs then ['ς'] else ['σ']
      else if c = 'İ' then ['i', '\u0307']
      else [lowerChar c]
    lower ++ lowercaseFrom (c :: before) cs

def lowercase (s : String) : String := String.ofList (lowercaseFrom [] s.toList)

end Dbml.Text
