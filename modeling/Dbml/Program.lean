import Dbml.Arguments
import Dbml.JsonSchema

/-!
# Programs

A program is given words and leaves an outcome: an exit code and what it has
written to its two outputs. There are two, of which one runs commands and the
other writes JSON schemas to files.
-/

namespace Dbml

open Json (Value)

structure Outcome where
  code : UInt32
  output : String
  errors : String
  deriving DecidableEq, Repr

namespace Outcome

/-- The report of an error, and of what lies behind it, with each of its lines
set in. -/
def report (message : String) (cause? : Option String) : String :=
  let behind := match cause? with
    | some cause => "\nCaused by:\n    " ++ cause.replace "\n" "\n    " ++ "\n"
    | none => ""
  "Error: " ++ message ++ "\n" ++ behind

def success (output : String) : Outcome := { code := 0, output, errors := "" }

def failure (message : String) (cause? : Option String) : Outcome :=
  { code := 1, output := "", errors := report message cause? }

/-- The outcome for words that do not ask for anything to be done. -/
def ofRefusal (usage version : String) : Refusal → Outcome
  | .help => success usage
  | .version => success version
  | .misused => { code := 2, output := "", errors := usage }

end Outcome

variable {m : Type → Type} [Monad m] [WritesFiles m]

/-! ## Commands -/

namespace Command

def usage : String :=
  "Usage: dbmlgen <COMMAND>\n\n" ++
  "Commands:\n" ++
  "  init\n" ++
  "  generate [-s|--schema PATH] [-f|--format FORMAT] [-o|--out PATH] [--no-many-to-many]\n" ++
  "  print [-s|--schema PATH] [-f|--format FORMAT]\n"

def version : String := "dbmlgen 0.1.12\n"

/-- Runs the command that the words ask for. -/
def program (words : List String) : m Outcome :=
  match read (words.map String.toList) with
  | .error refusal => return .ofRefusal usage version refusal
  | .ok command => do
    match ← command.run.run with
    | .ok output => return .success output
    | .error error => return .failure error.message error.cause?

end Command

/-! ## JSON schemas -/

namespace JsonSchema

/-- Why a JSON schema cannot be written to a file. -/
inductive Error
  | noDirectory (path : Path) (error : FileError)
  | notWritten (path : Path) (error : FileError)
  deriving DecidableEq, Repr

namespace Error

def message : Error → String
  | .noDirectory p _ => "create dir " ++ p.text
  | .notWritten p _ => "write " ++ p.text

def cause : Error → String
  | .noDirectory _ error | .notWritten _ error => error.message

end Error

def usage : String := "Usage: dbmlgen-schema-gen [-o|--out PATH]\n"

def writeTo (p : Path) (schema : Value) : ExceptT Error m Unit :=
  (writeText p schema.pretty).adapt (Error.notWritten p)

/-- Writes all JSON schemas to files in a directory. -/
def writeAll (dir : Path) : ExceptT Error m String := do
  unless ← pathExists (m := m) dir do
    (createDirectories dir).adapt (Error.noDirectory dir)
  let dataModelPath := dir.join ⟨"datamodel.schema.json"⟩
  let configPath := dir.join ⟨"config.schema.json"⟩
  writeTo dataModelPath dataModel
  writeTo configPath config
  return "Wrote schemas:\n  " ++ dataModelPath.text ++ "\n  " ++ configPath.text ++ "\n"

/-- Writes JSON schemas to where the words say. -/
def program (words : List String) : m Outcome :=
  match readOptions [Draft.outputSwitch] (words.map String.toList) with
  | .error refusal => return .ofRefusal usage usage refusal
  | .ok draft => do
    match ← (writeAll (draft.outputDir.getD ⟨"schemas"⟩)).run with
    | .ok output => return .success output
    | .error error => return .failure error.message (some error.cause)

end JsonSchema

end Dbml
