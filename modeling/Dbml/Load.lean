import Dbml.Config
import Dbml.FileAccess
import Dbml.FileFormat
import Dbml.Reading
import Dbml.Schema.Model

/-!
# Loading

A project is loaded from two files: its configuration, which may be left out,
and the schema description that the configuration names. Paths are relative to
the root of the project, if there is one.
-/

namespace Dbml

/-- Why a configuration or a schema description cannot be loaded. -/
inductive LoadError
  | configMissing (path : Path)
  | configUnreadable (path : Path) (error : FileError)
  | configInvalid (path : Path) (error : Json.Error)
  | schemaMissing (path : Path)
  | formatUnknown (path : Path)
  | schemaUnreadable (path : Path) (error : FileError)
  | schemaInvalid (path : Path) (error : ReadError)

/-- The name of the file that holds the configuration of a project. -/
def configName : String := "dbmlgen.json"

namespace LoadError

def message : LoadError → String
  | .configMissing p => configName ++ " not found at: " ++ p.text
  | .configUnreadable p _ => "read " ++ p.text
  | .configInvalid p _ => "parse " ++ p.text
  | .schemaMissing p => "schema description not found: " ++ p.text
  | .formatUnknown p =>
    "unsupported schema description format: " ++ p.text ++ " (expected .json, .yaml or .yml)"
  | .schemaUnreadable p _ => "read schema description: " ++ p.text
  | .schemaInvalid p (.json _) => "parse JSON schema description: " ++ p.text
  | .schemaInvalid p (.yaml _) => "parse YAML schema description: " ++ p.text

/-- What lies behind an error. -/
def cause? : LoadError → Option String
  | .configMissing _ | .schemaMissing _ | .formatUnknown _ => none
  | .configUnreadable _ error | .schemaUnreadable _ error => some error.message
  | .configInvalid _ error => some error.message
  | .schemaInvalid _ error => some error.message

end LoadError

/-- The path `p`, taken from a root if there is one. -/
def Path.under (p : Path) (root : Option Path) : Path :=
  match root with
  | some root => root.join p
  | none => p

variable {m : Type → Type} [Monad m] [ReadsFiles m]

def readConfig (p : Path) : ExceptT LoadError m Config := do
  let text ← (readText p).adapt (LoadError.configUnreadable p)
  ofExcept ((Json.read Config.read text).mapError (.configInvalid p))

/-- The configuration in a file. -/
def loadConfig (p : Path) : ExceptT LoadError m Config := do
  unless ← pathExists (m := m) p do throw (.configMissing p)
  readConfig p

/-- The configuration of a project, or that of a project without one. -/
def loadProjectConfig (root : Option Path) : ExceptT LoadError m Config := do
  let p := Path.under ⟨configName⟩ root
  if ← pathExists (m := m) p then loadConfig p else return {}

/-- The schema description in a file of a given format. -/
def loadDataModelAs (p : Path) (format : FileFormat) : ExceptT LoadError m DataModel := do
  let text ← (readText p).adapt (LoadError.schemaUnreadable p)
  ofExcept ((readDocument format.isYaml DataModel.read text).mapError (.schemaInvalid p))

/-- The schema description in a file, of which the extension tells the format. -/
def loadDataModel (p : Path) : ExceptT LoadError m DataModel :=
  match FileFormat.ofPath? p with
  | some format => loadDataModelAs p format
  | none => throw (.formatUnknown p)

/-- The schema description that a configuration names, in a given format or that
which its extension tells. -/
def loadProjectDataModel (config : Config) (root : Option Path) (format : Option FileFormat) :
    ExceptT LoadError m DataModel := do
  let p := config.schemaPath.under root
  unless ← pathExists (m := m) p do throw (.schemaMissing p)
  match format with
  | some format => loadDataModelAs p format
  | none => loadDataModel p

end Dbml
