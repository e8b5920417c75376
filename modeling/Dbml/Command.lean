import Dbml.Document
import Dbml.Json.Printer
import Dbml.Load

/-!
# Commands

What can be asked for in the directory of a project: to give it a configuration
(`Command.init`), to write its document to a file (`Command.generate`) or to
show it (`Command.print`). A command answers with the text that it has for the
user.
-/

namespace Dbml

/-- Why a command fails. -/
inductive CommandError
  | load (error : LoadError)
  | render (error : RenderError)
  | configExists
  | noDirectory (path : Path) (error : FileError)
  | notWritten (path : Path) (error : FileError)

namespace CommandError

def message : CommandError → String
  | .load error => error.message
  | .render _ => "render DBML"
  | .configExists => configName ++ " already exists"
  | .noDirectory p _ => "create output dir " ++ p.text
  | .notWritten p _ => "write " ++ p.text

def cause? : CommandError → Option String
  | .load error => error.cause?
  | .render error => some error.message
  | .configExists => none
  | .noDirectory _ error | .notWritten _ error => some error.message

end CommandError

/-- Where a schema description is read from, in place of what the configuration
and the extension say. -/
structure Input where
  path : Option Path := none
  format : Option FileFormat := none
  deriving DecidableEq, Repr

inductive Command
  | init
  | generate (input : Input) (outputDir : Option Path) (skipJoinTables : Bool)
  | print (input : Input)
  deriving DecidableEq, Repr

/-- The options, but without join tables if these are to be skipped. -/
def Options.skipping (o : Options) (joinTables : Bool) : Options :=
  if joinTables then { o with manyToMany := false } else o

def Config.withInput (c : Config) (input : Input) : Config :=
  { c with schemaPath := input.path.getD c.schemaPath }

section Reading

variable {m : Type → Type} [Monad m] [ReadsFiles m]

/-- The configuration of the project in the current directory. -/
def Input.config (input : Input) : ExceptT CommandError m Config := do
  let config ← (loadProjectConfig (m := m) none).adapt CommandError.load
  return config.withInput input

/-- The text of the document of the project in the current directory. -/
def Input.document (input : Input) (config : Config) (skipJoinTables : Bool) :
    ExceptT CommandError m String := do
  let dm ← (loadProjectDataModel (m := m) config none input.format).adapt CommandError.load
  ofExcept (((config.dbml.skipping skipJoinTables).render dm).mapError .render)

/-- Shows the document. -/
def showDocument (input : Input) : ExceptT CommandError m String := do
  let config ← input.config
  let text ← input.document config false
  return text ++ "\n"

end Reading

variable {m : Type → Type} [Monad m] [WritesFiles m]

/-- Writes a text to a file. -/
def writeFile (p : Path) (text : String) : ExceptT CommandError m Unit :=
  (writeText p text).adapt (CommandError.notWritten p)

/-- Writes the configuration that a project without one has. -/
def createConfig : ExceptT CommandError m String := do
  if ← pathExists (m := m) ⟨configName⟩ then throw .configExists
  writeFile ⟨configName⟩ (Config.toValue {}).pretty
  return "Created " ++ configName ++ "\n"

/-- Writes the document to its file, of which the directory is made if it is missing. -/
def writeDocument (input : Input) (outputDir : Option Path) (skipJoinTables : Bool) :
    ExceptT CommandError m String := do
  let config ← input.config
  let text ← input.document config skipJoinTables
  let dir := outputDir.getD config.outputDir
  unless ← pathExists (m := m) dir do
    (createDirectories dir).adapt (CommandError.noDirectory dir)
  let p := dir.join ⟨config.outputName⟩
  writeFile p text
  return "Generated " ++ p.text ++ "\n"

def Command.run : Command → ExceptT CommandError m String
  | .init => createConfig
  | .generate input outputDir skipJoinTables => writeDocument input outputDir skipJoinTables
  | .print input => showDocument input

end Dbml
