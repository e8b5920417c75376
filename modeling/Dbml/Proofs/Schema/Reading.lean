import Dbml.Schema.Model
import Dbml.Proofs.Schema.ColumnDefault

/-!
# Reading schema descriptions

Every record of a schema description is read from its value, wherever that is presented, and so
is the whole description (`DataModel.reads`). The draft that the members of a value fill is
the one that holds all of the record (`Field.toDraft`, `Model.toDraft` and so on).

What is said of a whole description is said of the texts and the defaults in it
(`DataModel.texts`, `DataModel.defaults`).
-/

namespace Dbml

open Data
open Json (Value)

/-! ## What a description holds -/

def ColumnDefault.texts : ColumnDefault → List String
  | .string value | .member value => [value]
  | .generated name _ => [name]
  | .number _ | .boolean _ | .unsupported => []

def RelationSide.texts (s : RelationSide) : List String :=
  s.name.toList ++ s.fromFields ++ s.toFields

def Field.texts (f : Field) : List String :=
  f.name :: f.type :: (f.default.toList.flatMap ColumnDefault.texts ++ f.documentation.toList ++
    f.relation.toList.flatMap RelationSide.texts)

def Model.texts (m : Model) : List String :=
  m.name :: (m.dbName.toList ++ m.fields.flatMap Field.texts ++ m.documentation.toList ++
    m.primaryKey.getD [] ++ m.uniqueFields.flatten)

def Enumeration.texts (e : Enumeration) : List String := e.name :: e.values

/-- What a data model says in words of its own: the names, types, keys and free texts, but not the
values inside the arguments of a default. -/
def DataModel.texts (dm : DataModel) : List String :=
  dm.models.flatMap Model.texts ++ dm.enums.flatMap Enumeration.texts

/-- The defaults of all fields. -/
def DataModel.defaults (dm : DataModel) : List ColumnDefault :=
  dm.models.flatMap fun model => model.fields.flatMap (·.default.toList)

theorem DataModel.mem_defaults {dm : DataModel} {d : ColumnDefault} :
    d ∈ dm.defaults ↔ ∃ model ∈ dm.models, ∃ f ∈ model.fields, d ∈ f.default := by
  simp only [defaults, List.mem_flatMap, Option.mem_toList]
  rfl

/-! ## Reading -/

variable {σ : Type} {m : Type → Type} [Monad m] [Source σ m]

theorem FieldKind.reads (k : FieldKind) : Reads (σ := σ) FieldKind.read (.string k.name) k :=
  reads_variant (by cases k <;> rfl)

theorem DeleteAction.reads (a : DeleteAction) :
    Reads (σ := σ) DeleteAction.read (.string a.name) a :=
  reads_variant (by cases a <;> rfl)

theorem join_map_some {α : Type} (x : Option α) : (x.map some).join = x := by cases x <;> rfl

variable [LawfulSource σ m]

theorem reads_texts (texts : List String) : Reads (σ := σ) readTexts (textsValue texts) texts :=
  reads_list_map fun s _ => reads_text s

section

variable {α δ : Type} {slots : List (Slot σ m δ)} {name : String} {required : Bool}

/-- A member that is written only if there is a value is read into the slot of its name. -/
theorem Fills.optional (put : Option (Option α) → δ) {get : δ → Option (Option α)}
    {set : δ → Option α → δ} {read : σ → m α} {toValue : α → Value} {x : Option α}
    (hslot : slots.find? (·.name == name) =
      some (.ofLens name required get set (readOptional read))) (hempty : get (put none) = none)
    (hset : ∀ a, set (put none) (some a) = put (some (some a))) (hvalue : ∀ a, toValue a ≠ .null)
    (h : ∀ a ∈ x, Reads read (toValue a) a) :
    Fills slots (put none) (optionalMember name (x.map toValue)) (put (x.map some)) := by
  cases x with
  | none => exact Fills.nil
  | some a => exact Fills.member hslot hempty ((h a rfl).optional (hvalue a)) (hset a)

/-- Texts that are written only if there are any are read into the slot of their name. -/
theorem Fills.texts (put : Option (List String) → δ) {get : δ → Option (List String)}
    {set : δ → List String → δ} {texts : List String} (hslot : slots.find? (·.name == name) =
      some (.ofLens name required get set readTexts)) (hempty : get (put none) = none)
    (hset : set (put none) texts = put (some texts)) :
    Fills slots (put none) (textsMember name texts) (put (nonempty texts)) :=
  Fills.list put hslot hempty hset
    (List.forall₂_map_left_iff.mpr (List.forall₂_same.mpr fun s _ => reads_text s))

end

namespace RelationSide

/-- The draft of a side that is read to the end. -/
def toDraft (side : RelationSide) : Draft where
  name := side.name.map some
  fromFields := nonempty side.fromFields
  toFields := nonempty side.toFields
  onDelete := side.onDelete.map some

theorem ofDraft_toDraft (side : RelationSide) : ofDraft side.toDraft = .ok side := by
  rw [ofDraft, toDraft]
  simp only [join_map_some, getD_nonempty]

theorem reads (side : RelationSide) : Reads (σ := σ) RelationSide.read side.toValue side := by
  have hname : Fills (σ := σ) slots {} (optionalMember "name" (side.name.map .string))
      { name := side.name.map some } :=
    Fills.optional (fun x => ({ name := x } : Draft)) rfl rfl (fun _ => rfl)
      (fun _ => Value.noConfusion) fun s _ => reads_text s
  have hfrom : Fills (σ := σ) slots _ (textsMember "fromFields" side.fromFields)
      { side.toDraft with toFields := none, onDelete := none } :=
    Fills.texts (fun x => ({ name := side.name.map some, fromFields := x } : Draft)) rfl rfl rfl
  have hto : Fills (σ := σ) slots _ (textsMember "toFields" side.toFields)
      { side.toDraft with onDelete := none } :=
    Fills.texts (fun x => { side.toDraft with toFields := x, onDelete := none }) rfl rfl rfl
  have hdelete : Fills (σ := σ) slots _ (optionalMember "onDelete"
      (side.onDelete.map fun action => .string action.name)) side.toDraft :=
    Fills.optional (fun x => { side.toDraft with onDelete := x }) rfl rfl (fun _ => rfl)
      (fun _ => Value.noConfusion) fun action _ => action.reads
  exact reads_record (((hname.append hfrom).append hto).append hdelete) side.ofDraft_toDraft

end RelationSide

namespace Field

/-- The draft of a field that is read to the end. -/
def toDraft (f : Field) : Draft where
  name := some f.name
  kind := some f.kind
  type := some f.type
  isId := some f.isId
  isUnique := some f.isUnique
  isRequired := some f.isRequired
  isList := some f.isList
  default := f.default.map some
  documentation := f.documentation.map some
  relation := f.relation.map some

theorem ofDraft_toDraft (f : Field) : ofDraft f.toDraft = .ok f := by
  change Except.ok _ = _
  simp only [toDraft, join_map_some, Option.getD_some]

theorem reads (f : Field) (h : ∀ d ∈ f.default, ∀ v ∈ d.args, v.Ordered) :
    Reads (σ := σ) Field.read f.toValue f := by
  have hgiven : Fills (σ := σ) slots {} [("name", .string f.name), ("kind", .string f.kind.name),
      ("type", .string f.type), ("isId", .bool f.isId), ("isUnique", .bool f.isUnique),
      ("isRequired", .bool f.isRequired), ("isList", .bool f.isList)]
      { f.toDraft with default := none, documentation := none, relation := none } :=
    .cons (.member rfl rfl (reads_text f.name) rfl) <|
    .cons (.member rfl rfl f.kind.reads rfl) <|
    .cons (.member rfl rfl (reads_text f.type) rfl) <|
    .cons (.member rfl rfl (reads_bool f.isId) rfl) <|
    .cons (.member rfl rfl (reads_bool f.isUnique) rfl) <|
    .cons (.member rfl rfl (reads_bool f.isRequired) rfl)
      (.member rfl rfl (reads_bool f.isList) rfl)
  have hdefault : Fills (σ := σ) slots _ (optionalMember "default" (f.default.map (·.toValue)))
      { f.toDraft with documentation := none, relation := none } :=
    Fills.optional (fun x => { f.toDraft with
      default := x, documentation := none, relation := none }) rfl rfl
      (fun _ => rfl) (fun _ => Value.noConfusion) fun d hd => d.reads (h d hd)
  have hdocumentation : Fills (σ := σ) slots _
      (optionalMember "documentation" (f.documentation.map .string))
      { f.toDraft with relation := none } :=
    Fills.optional (fun x => { f.toDraft with documentation := x, relation := none })
      rfl rfl (fun _ => rfl)
      (fun _ => Value.noConfusion) fun s _ => reads_text s
  have hrelation : Fills (σ := σ) slots _ (optionalMember "relation" (f.relation.map (·.toValue)))
      f.toDraft :=
    Fills.optional (fun x => { f.toDraft with relation := x }) rfl rfl (fun _ => rfl)
      (fun _ => Value.noConfusion) fun side _ => side.reads
  exact reads_record (((hgiven.append hdefault).append hdocumentation).append hrelation)
    f.ofDraft_toDraft

end Field

namespace Model

/-- The draft of a model that is read to the end. -/
def toDraft (m : Model) : Draft where
  name := some m.name
  dbName := m.dbName.map some
  fields := some m.fields
  documentation := m.documentation.map some
  primaryKey := m.primaryKey.map some
  uniqueFields := nonempty m.uniqueFields

theorem ofDraft_toDraft (m : Model) : ofDraft m.toDraft = .ok m := by
  change Except.ok _ = _
  simp only [toDraft, join_map_some, getD_nonempty]

theorem reads (model : Model)
    (h : ∀ f ∈ model.fields, ∀ d ∈ f.default, ∀ v ∈ d.args, v.Ordered) :
    Reads (σ := σ) Model.read model.toValue model := by
  have hname : Fills (σ := σ) slots {} [("name", .string model.name)] { name := some model.name } :=
    .member rfl rfl (reads_text model.name) rfl
  have hdbName : Fills (σ := σ) slots _ (optionalMember "dbName" (model.dbName.map .string))
      { name := some model.name, dbName := model.dbName.map some } :=
    Fills.optional (fun x => ({ name := some model.name, dbName := x } : Draft)) rfl rfl
      (fun _ => rfl) (fun _ => Value.noConfusion) fun s _ => reads_text s
  have hfields : Fills (σ := σ) slots { name := some model.name, dbName := model.dbName.map some }
      [("fields", .array (model.fields.map (·.toValue)))]
      { model.toDraft with documentation := none, primaryKey := none, uniqueFields := none } :=
    .member rfl rfl (reads_list_map fun f hf => f.reads (h f hf)) rfl
  have hdocumentation : Fills (σ := σ) slots _
      (optionalMember "documentation" (model.documentation.map .string))
      { model.toDraft with primaryKey := none, uniqueFields := none } :=
    Fills.optional (fun x => { model.toDraft with
      documentation := x, primaryKey := none, uniqueFields := none }) rfl rfl
      (fun _ => rfl) (fun _ => Value.noConfusion) fun s _ => reads_text s
  have hprimaryKey : Fills (σ := σ) slots _
      (optionalMember "primaryKey" (model.primaryKey.map textsValue))
      { model.toDraft with uniqueFields := none } :=
    Fills.optional (fun x => { model.toDraft with primaryKey := x, uniqueFields := none }) rfl rfl
      (fun _ => rfl) (fun _ => Value.noConfusion) fun key _ => reads_texts key
  have huniqueFields : Fills (σ := σ) slots _ (if model.uniqueFields.isEmpty then []
      else [("uniqueFields", .array (model.uniqueFields.map textsValue))]) model.toDraft :=
    Fills.list (fun x => { model.toDraft with uniqueFields := x }) rfl rfl rfl
      (List.forall₂_map_left_iff.mpr (List.forall₂_same.mpr fun key _ => reads_texts key))
  exact reads_record (((((hname.append hdbName).append hfields).append hdocumentation).append
    hprimaryKey).append huniqueFields) model.ofDraft_toDraft

end Model

theorem Enumeration.reads (e : Enumeration) :
    Reads (σ := σ) Enumeration.read e.toValue e := by
  have hmembers : Fills (σ := σ) slots {}
      [("name", .string e.name), ("values", textsValue e.values)]
      { name := some e.name, values := some e.values } :=
    .cons (.member rfl rfl (reads_text e.name) rfl) (.member rfl rfl (reads_texts e.values) rfl)
  exact reads_record hmembers rfl

namespace DataModel

/-- A schema description is read from its value. -/
theorem reads (dm : DataModel) (h : ∀ d ∈ dm.defaults, ∀ v ∈ d.args, v.Ordered) :
    Reads (σ := σ) DataModel.read dm.toValue dm := by
  have hmodels : ∀ model ∈ dm.models, Reads (σ := σ) Model.read model.toValue model :=
    fun model hmodel => model.reads fun f hf d hd =>
      h d (mem_defaults.mpr ⟨model, hmodel, f, hf, hd⟩)
  have hmembers : Fills (σ := σ) slots {} [("models", .array (dm.models.map (·.toValue))),
      ("enums", .array (dm.enums.map (·.toValue)))]
      { models := some dm.models, enums := some dm.enums } :=
    .cons (.member rfl rfl (reads_list_map hmodels) rfl)
      (.member rfl rfl (reads_list_map fun e _ => e.reads) rfl)
  exact reads_record hmembers rfl

end DataModel

end Dbml
