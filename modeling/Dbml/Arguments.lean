import Dbml.Command

/-!
# Arguments

A command line is read word by word, each for what it is by its hyphens
(`Word.ofText`). The options that a command knows are given as changes of a
draft (`Switch`), so that one reading serves them all (`readSwitches`). An
option that wants a value has it in its own word or is the last of its word and
has it in the next, which must not look like an option.
-/

namespace Dbml

inductive Word
  /-- The word `--`, after which there are no options. -/
  | escape
  /-- The name of an option, and the value that an equals sign gives it. -/
  | long (name : List Char) (value : Option (List Char))
  /-- Options of one letter each, the last of which may go on with its value. -/
  | short (letters : List Char)
  | plain (text : List Char)
  deriving DecidableEq, Repr

namespace Word

def ofText : List Char → Word
  | '-' :: '-' :: [] => .escape
  | '-' :: '-' :: rest =>
    let name := rest.takeWhile (· ≠ '=')
    .long name (rest.drop name.length).tail?
  | '-' :: c :: cs => .short (c :: cs)
  | text => .plain text

end Word

/-- Why a command line does not lead to a command. -/
inductive Refusal
  /-- It asks how the program is used. -/
  | help
  /-- It asks which program this is. -/
  | version
  | misused
  deriving DecidableEq, Repr

/-- What an option does to a draft, if it may. -/
inductive Effect (α : Type)
  | help
  | flag (apply : α → Option α)
  | value (apply : α → List Char → Option α)

structure Switch (α : Type) where
  name : String
  letter : Option Char
  effect : Effect α

/-- A draft after a word, or what the next word is to it. -/
inductive Progress (α : Type)
  | done (draft : α)
  | wants (apply : List Char → Option α)

section Reading

variable {α : Type}

/-- What an option allows, or misuse. -/
def orMisused {β : Type} : Option β → Except Refusal β
  | some b => .ok b
  | none => .error .misused

/-- Reads the letters of a word. -/
def readLetters (switches : List (Switch α)) : α → List Char → Except Refusal (Progress α)
  | draft, [] => .ok (.done draft)
  | draft, c :: cs => do
    let switch ← orMisused (switches.find? (·.letter == some c))
    match switch.effect, cs with
    | .help, _ => throw .help
    | .flag apply, _ => readLetters switches (← orMisused (apply draft)) cs
    | .value apply, [] => return .wants (apply draft)
    | .value apply, '=' :: value => return .done (← orMisused (apply draft value))
    | .value apply, value => return .done (← orMisused (apply draft value))

def readLong (switches : List (Switch α)) (draft : α) (name : List Char)
    (value : Option (List Char)) : Except Refusal (Progress α) := do
  let switch ← orMisused (switches.find? (·.name.toList == name))
  match switch.effect, value with
  | .help, none => throw .help
  | .flag apply, none => return .done (← orMisused (apply draft))
  | .value apply, none => return .wants (apply draft)
  | .value apply, some value => return .done (← orMisused (apply draft value))
  | _, some _ => throw .misused

/-- Reads the options of a command, which are all that it has. -/
def readSwitches (switches : List (Switch α)) : α → List (List Char) → Except Refusal α
  | draft, [] => .ok draft
  | draft, text :: rest => do
    let progress ← match Word.ofText text with
      | .escape => if rest = [] then pure (.done draft) else throw .misused
      | .long name value => readLong switches draft name value
      | .short letters => readLetters switches draft letters
      | .plain _ => throw .misused
    match progress, rest with
    | .done draft, rest => readSwitches switches draft rest
    | .wants _, [] => throw .misused
    | .wants apply, value :: rest =>
      match Word.ofText value with
      | .plain value => readSwitches switches (← orMisused (apply value)) rest
      | _ => throw .misused

end Reading

/-! ## The options -/

/-- Gives a value to what has none yet. -/
def fill {β : Type} (old : Option β) (new : Option β) : Option (Option β) :=
  if old.isNone && new.isSome then some new else none

/-- A path, which is not empty. -/
def pathOf (text : List Char) : Option Path :=
  if text.isEmpty then none else some ⟨String.ofList text⟩

/-- The options of a command as far as they have been read. -/
structure Draft where
  schema : Option Path := none
  format : Option FileFormat := none
  outputDir : Option Path := none
  skipJoinTables : Bool := false

namespace Draft

def input (d : Draft) : Input := { path := d.schema, format := d.format }

def help : Switch Draft where
  name := "help"
  letter := some 'h'
  effect := .help

def inputSwitches : List (Switch Draft) :=
  [{ name := "schema"
     letter := some 's'
     effect := .value fun d text =>
      (fill d.schema (pathOf text)).map fun schema => { d with schema } },
   { name := "format"
     letter := some 'f'
     effect := .value fun d text =>
      (fill d.format (FileFormat.ofName? (String.ofList text))).map fun format =>
        { d with format } }]

def outputSwitch : Switch Draft where
  name := "out"
  letter := some 'o'
  effect := .value fun d text =>
    (fill d.outputDir (pathOf text)).map fun outputDir => { d with outputDir }

def joinTableSwitch : Switch Draft where
  name := "no-many-to-many"
  letter := none
  effect := .flag fun d => if d.skipJoinTables then none else some { d with skipJoinTables := true }

end Draft

/-- Reads the options of a command. -/
def readOptions (switches : List (Switch Draft)) (words : List (List Char)) :
    Except Refusal Draft :=
  readSwitches (Draft.help :: switches) {} words

namespace Command

def names : List String := ["init", "generate", "print", "help"]

/-- Reads what is asked about, which is a command if anything. -/
def readHelp : List (List Char) → Refusal
  | [] => .help
  | [name] => if names.any (·.toList == name) then .help else .misused
  | _ => .misused

/-- Reads a command by its name. -/
def readNamed (name : String) (words : List (List Char)) : Except Refusal Command := do
  match name with
  | "init" =>
    let _ ← readOptions [] words
    return .init
  | "generate" =>
    let switches := Draft.inputSwitches ++ [Draft.outputSwitch, Draft.joinTableSwitch]
    let d ← readOptions switches words
    return .generate d.input d.outputDir d.skipJoinTables
  | "print" =>
    let d ← readOptions Draft.inputSwitches words
    return .print d.input
  | "help" => throw (readHelp words)
  | _ => throw .misused

/-- Reads a command line. -/
def read : List (List Char) → Except Refusal Command
  | [] => .error .misused
  | text :: words =>
    match Word.ofText text with
    | .plain name => readNamed (String.ofList name) words
    | .long name none =>
      if name = "help".toList then .error .help
      else if name = "version".toList then .error .version
      else .error .misused
    | .short ('h' :: _) => .error .help
    | .short ('V' :: _) => .error .version
    | _ => .error .misused

end Command

end Dbml
