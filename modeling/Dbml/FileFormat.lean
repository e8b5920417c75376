import Dbml.Path
import Dbml.Schema.Field

/-!
# File formats

A schema description is written in JSON or in YAML, which the extension of its
file tells (`FileFormat.ofPath?`).
-/

namespace Dbml

open Data (Source)

inductive FileFormat
  | json
  | yaml
  | yml
  deriving DecidableEq, Repr, Inhabited

namespace FileFormat

def all : List FileFormat := [.json, .yaml, .yml]

/-- The name, which is also the extension. -/
def name : FileFormat → String
  | .json => "json"
  | .yaml => "yaml"
  | .yml => "yml"

def ofName? (name : String) : Option FileFormat := all.find? (·.name == name)

def ofPath? (p : Path) : Option FileFormat := p.extension?.bind ofName?

def isYaml : FileFormat → Bool
  | .json => false
  | .yaml | .yml => true

def read {σ : Type} {m : Type → Type} [Monad m] [Source σ m] (c : σ) : m FileFormat :=
  Source.variant (recognise all name) c

end FileFormat

end Dbml
