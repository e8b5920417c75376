import Dbml.Config
import Dbml.Proofs.Schema.RoundTrip

/-!
# Configurations as JSON

A configuration is read back from the JSON text of its object, compact or pretty, and also if
members that have the values that they have by default are left out of the object
(`Config.read_toValueWithout`).
-/

namespace Dbml

open Data (Fills LawfulSource Reads Slot Source reads_record reads_text reads_bool)
open Json (Value)

namespace Json.Value

/-- An object without the members of some names. -/
def without (names : List String) : Value → Value
  | .object members => .object (members.filter (·.1 ∉ names))
  | v => v

/-- An object of which the members of one name are changed. -/
def modifyMember (name : String) (f : Value → Value) : Value → Value
  | .object members => .object (members.map fun (n, v) => (n, if n = name then f v else v))
  | v => v

end Json.Value

/-- Whether options have the default values of the members `names` of their object. -/
structure Options.MayOmit (o : Options) (names : List String) : Prop where
  manyToMany : "manyToMany" ∈ names → o.manyToMany = ({} : Options).manyToMany
  includeRelationFields :
    "includeRelationFields" ∈ names → o.includeRelationFields = ({} : Options).includeRelationFields
  mapToDbSchema : "mapToDbSchema" ∈ names → o.mapToDbSchema = ({} : Options).mapToDbSchema
  project : "project" ∈ names → o.project = ({} : Options).project

/-- Whether a configuration has the default values of the members `own` of its object and of
the members `ofDbml` of that of its options. -/
structure Config.MayOmit (c : Config) (own ofDbml : List String) : Prop where
  schemaPath : "schemaPath" ∉ own
  outputDir : "outputDir" ∉ own
  outputName : "outputName" ∈ own → c.outputName = ({} : Config).outputName
  dbml : "dbml" ∈ own → c.dbml = ({} : Config).dbml
  options : c.dbml.MayOmit ofDbml

/-- The object of a configuration, less the members `own` of it and the members `ofDbml` of the
object of its options. -/
def Config.toValueWithout (c : Config) (own ofDbml : List String) : Value :=
  (c.toValue.modifyMember "dbml" (·.without ofDbml)).without own

/-! ## Members that are kept -/

section

variable {α : Type} {name : String} {names : List String}

/-- What is read of a member that is not there if its name is among those that are left out. -/
def kept (name : String) (names : List String) (a : α) : Option α :=
  if name ∈ names then none else some a

theorem kept_of_not_mem (h : name ∉ names) (a : α) : kept name names a = some a := if_neg h

/-- A default value is the same, written or not. -/
theorem getD_kept {a standard : α} (h : name ∈ names → a = standard) :
    (kept name names a).getD standard = a := by
  unfold kept
  split
  · exact (h ‹_›).symm
  · rfl

theorem filter_optionalMember {x : Option α} {toValue : α → Value} (h : name ∈ names → x = none) :
    (optionalMember name (x.map toValue)).filter (·.1 ∉ names) =
      optionalMember name (x.map toValue) := by
  refine List.filter_eq_self.mpr fun member hmember => ?_
  cases x with
  | none => cases hmember
  | some a =>
    rw [List.mem_singleton.mp hmember, decide_eq_true_eq]
    exact fun hname => Option.some_ne_none a (h hname)

variable {σ : Type} {m : Type → Type} [Monad m] [Source σ m] [LawfulSource σ m] {δ : Type}
  {slots : List (Slot σ m δ)} {required : Bool}

/-- A member is read into the empty slot of its name, if it is there. -/
theorem Fills.kept (put : Option α → δ) {get : δ → Option α} {set : δ → α → δ} {read : σ → m α}
    {v : Value} {a : α}
    (hslot : slots.find? (·.name == name) = some (.ofLens name required get set read))
    (hempty : get (put none) = none) (hset : set (put none) a = put (some a))
    (h : Reads read v a) :
    Fills slots (put none) ([(name, v)].filter (·.1 ∉ names)) (put (kept name names a)) := by
  unfold Dbml.kept
  by_cases hname : name ∈ names
  · rw [if_pos hname, List.filter_cons_of_neg (by simpa using hname)]
    exact Fills.nil
  · rw [if_neg hname, List.filter_cons_of_pos (by simpa using hname)]
    exact Fills.member hslot hempty h hset

end

/-! ## Reading values -/

variable {σ : Type} {m : Type → Type} [Monad m] [Source σ m]

theorem Path.reads (p : Path) : Reads (σ := σ) Data.readPath (.string p.text) p.text :=
  fun _ h => h.2.1 _

variable [LawfulSource σ m]

/-- The draft of a project that is read to the end. -/
def Project.toDraft (p : Project) : Draft where
  name := some p.name
  databaseType := p.databaseType.map some
  note := p.note.map some

theorem Project.reads (p : Project) : Reads (σ := σ) Project.read p.toValue p := by
  have hname : Fills (σ := σ) slots {} [("name", .string p.name)] { name := some p.name } :=
    .member rfl rfl (reads_text p.name) rfl
  have htype : Fills (σ := σ) slots _ (optionalMember "databaseType" (p.databaseType.map .string))
      { p.toDraft with note := none } :=
    Fills.optional (fun x => ({ name := some p.name, databaseType := x } : Draft)) rfl rfl
      (fun _ => rfl) (fun _ => Value.noConfusion) fun s _ => reads_text s
  have hnote : Fills (σ := σ) slots _ (optionalMember "note" (p.note.map .string)) p.toDraft :=
    Fills.optional (fun x => { p.toDraft with note := x }) rfl rfl (fun _ => rfl)
      (fun _ => Value.noConfusion) fun s _ => reads_text s
  refine reads_record ((hname.append htype).append hnote) ?_
  change Except.ok _ = _
  simp only [toDraft, join_map_some]

namespace Options

variable (o : Options) {names : List String}

/-- The draft of options that are read without some members. -/
def draftWithout (names : List String) : Draft where
  manyToMany := kept "manyToMany" names o.manyToMany
  includeRelationFields := kept "includeRelationFields" names o.includeRelationFields
  mapToDbSchema := kept "mapToDbSchema" names o.mapToDbSchema
  project := o.project.map some

theorem ofDraft_draftWithout (h : o.MayOmit names) : ofDraft (o.draftWithout names) = .ok o := by
  simp only [ofDraft, draftWithout, getD_kept h.manyToMany, getD_kept h.includeRelationFields,
    getD_kept h.mapToDbSchema, join_map_some]

theorem reads_without (h : o.MayOmit names) :
    Reads (σ := σ) Options.read (o.toValue.without names) o := by
  let draft := o.draftWithout names
  have hmany : Fills (σ := σ) slots {}
      ([("manyToMany", .bool o.manyToMany)].filter (·.1 ∉ names))
      { manyToMany := draft.manyToMany } :=
    Fills.kept (fun x => ({ manyToMany := x } : Draft)) rfl rfl rfl (reads_bool _)
  have hinclude : Fills (σ := σ) slots _
      ([("includeRelationFields", .bool o.includeRelationFields)].filter (·.1 ∉ names))
      { draft with mapToDbSchema := none, project := none } :=
    Fills.kept (fun x => ({ manyToMany := draft.manyToMany, includeRelationFields := x } : Draft))
      rfl rfl rfl (reads_bool _)
  have hmap : Fills (σ := σ) slots _
      ([("mapToDbSchema", .bool o.mapToDbSchema)].filter (·.1 ∉ names))
      { draft with project := none } :=
    Fills.kept (fun x => { draft with mapToDbSchema := x, project := none }) rfl rfl rfl
      (reads_bool _)
  have hproject : Fills (σ := σ) slots _ (optionalMember "project" (o.project.map (·.toValue)))
      draft :=
    Fills.optional (fun x => { draft with project := x }) rfl rfl (fun _ => rfl)
      (fun _ => Value.noConfusion) fun p _ => p.reads
  rw [← filter_optionalMember h.project] at hproject
  have hmembers := ((hmany.append hinclude).append hmap).append hproject
  simp only [← List.filter_append] at hmembers
  exact reads_record hmembers (o.ofDraft_draftWithout h)

end Options

namespace Config

variable (c : Config) {own ofDbml : List String}

theorem toValueWithout_eq (own ofDbml : List String) :
    c.toValueWithout own ofDbml = Value.without own (.object
      [("schemaPath", .string c.schemaPath.text), ("outputDir", .string c.outputDir.text),
        ("outputName", .string c.outputName), ("dbml", c.dbml.toValue.without ofDbml)]) := rfl

theorem toValueWithout_nil : c.toValueWithout [] [] = c.toValue := by
  have hself (members : List (String × Value)) : members.filter (·.1 ∉ []) = members :=
    List.filter_eq_self.mpr fun _ _ => rfl
  rw [toValueWithout_eq, Value.without, hself, Options.toValue, Value.without, hself]
  rfl

/-- The draft of a configuration that is read without some members. -/
def draftWithout (own : List String) : Draft where
  schemaPath := kept "schemaPath" own c.schemaPath.text
  outputDir := kept "outputDir" own c.outputDir.text
  outputName := kept "outputName" own c.outputName
  dbml := kept "dbml" own c.dbml

theorem ofDraft_draftWithout (h : c.MayOmit own ofDbml) :
    ofDraft (c.draftWithout own) = .ok c := by
  rw [ofDraft, draftWithout, kept_of_not_mem h.schemaPath, kept_of_not_mem h.outputDir]
  change Except.ok _ = _
  rw [getD_kept h.outputName, getD_kept h.dbml]

theorem reads_without (h : c.MayOmit own ofDbml) :
    Reads (σ := σ) Config.read (c.toValueWithout own ofDbml) c := by
  let draft := c.draftWithout own
  have hschema : Fills (σ := σ) slots {}
      ([("schemaPath", .string c.schemaPath.text)].filter (·.1 ∉ own))
      { schemaPath := draft.schemaPath } :=
    Fills.kept (fun x => ({ schemaPath := x } : Draft)) rfl rfl rfl c.schemaPath.reads
  have hdir : Fills (σ := σ) slots _
      ([("outputDir", .string c.outputDir.text)].filter (·.1 ∉ own))
      { draft with outputName := none, dbml := none } :=
    Fills.kept (fun x => ({ schemaPath := draft.schemaPath, outputDir := x } : Draft)) rfl rfl rfl
      c.outputDir.reads
  have hname : Fills (σ := σ) slots _
      ([("outputName", .string c.outputName)].filter (·.1 ∉ own)) { draft with dbml := none } :=
    Fills.kept (fun x => { draft with outputName := x, dbml := none }) rfl rfl rfl
      (reads_text c.outputName)
  have hdbml : Fills (σ := σ) slots _
      ([("dbml", c.dbml.toValue.without ofDbml)].filter (·.1 ∉ own)) draft :=
    Fills.kept (fun x => { draft with dbml := x }) rfl rfl rfl (c.dbml.reads_without h.options)
  have hmembers := ((hschema.append hdir).append hname).append hdbml
  simp only [← List.filter_append] at hmembers
  rw [toValueWithout_eq]
  exact reads_record hmembers (c.ofDraft_draftWithout h)

end Config

/-! ## Reading texts -/

namespace Json.Value

variable {v : Value} {n : Nat}

theorem numbers_without (h : v.numbers = []) (names : List String) :
    (v.without names).numbers = [] := by
  cases v with
  | object members =>
    rw [numbers_object, List.flatMap_eq_nil_iff] at h
    rw [without, numbers_object, List.flatMap_eq_nil_iff]
    exact fun member hmember => h member (List.mem_of_mem_filter hmember)
  | _ => exact h

theorem nesting_without_lt (h : v.nesting < n + 1) (names : List String) :
    (v.without names).nesting < n + 1 := by
  cases v with
  | object members =>
    obtain ⟨hpos, hmembers⟩ := nesting_object_lt.mp h
    exact nesting_object_lt.mpr
      ⟨hpos, fun member hmember => hmembers member (List.mem_of_mem_filter hmember)⟩
  | _ => exact h

end Json.Value

theorem Project.numbers_toValue (p : Project) : p.toValue.numbers = [] := by
  simp [toValue, flatMap_optionalMember]

theorem Options.numbers_toValue (o : Options) : o.toValue.numbers = [] := by
  simp [toValue, flatMap_optionalMember, Project.numbers_toValue]

theorem Project.nesting_toValue (p : Project) : p.toValue.nesting < 2 := by
  simp only [toValue, Value.nesting_object_lt, List.forall_mem_append, forall_mem_optionalMember]
  exact ⟨Nat.one_pos, ⟨by simp, fun _ _ => Nat.one_pos⟩, fun _ _ => Nat.one_pos⟩

theorem Options.nesting_toValue (o : Options) : o.toValue.nesting < 3 := by
  simp only [toValue, Value.nesting_object_lt, List.forall_mem_append, forall_mem_optionalMember]
  exact ⟨Nat.two_pos, by simp, fun p _ => p.nesting_toValue⟩

namespace Config

variable (c : Config) {own ofDbml : List String}

theorem numbers_toValueWithout : (c.toValueWithout own ofDbml).numbers = [] := by
  rw [toValueWithout_eq]
  refine Value.numbers_without ?_ own
  simp [Value.numbers_without c.dbml.numbers_toValue ofDbml]

theorem nesting_toValueWithout : (c.toValueWithout own ofDbml).nesting < Json.maxDepth := by
  have hdbml : (c.dbml.toValue.without ofDbml).nesting < 3 :=
    Value.nesting_without_lt c.dbml.nesting_toValue ofDbml
  rw [toValueWithout_eq]
  refine Value.nesting_without_lt (Value.nesting_object_lt.mpr ⟨by decide, ?_⟩) own
  simp only [List.forall_mem_cons, Value.nesting_string, List.not_mem_nil]
  exact ⟨by decide, by decide, by decide, hdbml.trans (by decide), nofun⟩

/-- A configuration is read back from its text, also without the members that have the values
that they have by default. -/
theorem read_toValueWithout (h : c.MayOmit own ofDbml) :
    Json.read Config.read (c.toValueWithout own ofDbml).compact = .ok c ∧
      Json.read Config.read (c.toValueWithout own ofDbml).pretty = .ok c := by
  have hnumbers : ∀ n ∈ (c.toValueWithout own ofDbml).numbers, n.IsWordInteger := by
    rw [numbers_toValueWithout]
    exact nofun
  exact ⟨Json.read_compact (c.reads_without h) hnumbers c.nesting_toValueWithout,
    Json.read_pretty (c.reads_without h) hnumbers c.nesting_toValueWithout⟩

/-- Nothing has to be left out. -/
theorem read_toValue :
    Json.read Config.read c.toValue.compact = .ok c ∧
      Json.read Config.read c.toValue.pretty = .ok c := by
  have hnone : c.MayOmit [] [] := ⟨nofun, nofun, nofun, nofun, nofun, nofun, nofun, nofun⟩
  rw [← c.toValueWithout_nil]
  exact c.read_toValueWithout hnone

end Config

end Dbml
