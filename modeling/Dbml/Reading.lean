import Dbml.Json.Source
import Dbml.Yaml.Source

/-!
# Reading documents

A reader of data reads them from any source, so that the same reader serves
documents in either format.
-/

namespace Dbml

open Data (Source)

/-- Reads an `α` from a place of any document. -/
abbrev Reader (α : Type) :=
  {σ : Type} → {m : Type → Type} → [Monad m] → [Source σ m] → σ → m α

/-- Why a document cannot be read, by its format. -/
inductive ReadError
  | json (error : Json.Error)
  | yaml (error : Yaml.Error)

def ReadError.message : ReadError → String
  | .json error => error.message
  | .yaml error => error.message?.getD "malformed document"

/-- Reads a document in YAML or in JSON. -/
def readDocument {α : Type} (isYaml : Bool) (reader : Reader α) (text : String) :
    Except ReadError α :=
  if isYaml then (Yaml.read reader text).mapError .yaml
  else (Json.read reader text).mapError .json

end Dbml
