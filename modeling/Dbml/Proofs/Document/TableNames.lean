import Dbml.Proofs.Document.Names
import Dbml.Proofs.Document.Settings
import Dbml.Proofs.Relation.Renaming

/-!
# Models named like their tables

To show the names of tables is to show those of models in a data model that calls its
models by the names of their tables (`DataModel.renamed`), as long as no two names become
one and every relation is given a name. Groups of ends, their order, rows and references
are the same. Join tables are too, but for the type of a column whose identifying field
is a relation: this is the type as it is written, not the name of a table, and so differs
(`render_renamed`, `Seats.renamed_differs`).
-/

namespace Dbml

/-- The options, showing the names of tables. -/
def Options.withTableNames (o : Options) : Options := { o with mapToDbSchema := true }

/-- The options, showing the names of models. -/
def Options.withModelNames (o : Options) : Options := { o with mapToDbSchema := false }

/-- The name of the table of the model called `name`. -/
def DataModel.mappedName (dm : DataModel) (name : String) : String :=
  match dm.model? name with
  | some m => m.outputName true
  | none => name

/-- A side of a relation points at the name of a table. -/
def Field.renamed (dm : DataModel) (f : Field) : Field :=
  { f with type := if f.isRelation then dm.mappedName f.type else f.type }

def Model.renamed (dm : DataModel) (m : Model) : Model :=
  { m with name := m.outputName true, dbName := none, fields := m.fields.map (·.renamed dm) }

/-- The data model with models that are called like their tables. -/
def DataModel.renamed (dm : DataModel) : DataModel :=
  { dm with models := dm.models.map (·.renamed dm) }

def RelationField.renamed (dm : DataModel) (x : RelationField) : RelationField :=
  { x with owner := x.owner.renamed dm, field := x.field.renamed dm }

def Endpoint.renamed (dm : DataModel) (e : Endpoint) : Endpoint :=
  ⟨e.toRelationField.renamed dm, e.target.renamed dm⟩

/-- No two models have a name or the name of a table in common, and every side of a relation
points at a model and gives the relation a name of its own, before and after renaming. -/
structure DataModel.Renamable (dm : DataModel) : Prop where
  names : (dm.models.map (·.name)).Nodup
  tableNames : (dm.models.map (·.outputName true)).Nodup
  declared : ∀ m ∈ dm.models, ∀ f ∈ m.fields, f.isRelation = true →
    ∃ target ∈ dm.models, target.name = f.type ∧ ∃ name, f.relationName = some name ∧
      name ≠ defaultRelationName m.name target.name ∧
      name ≠ defaultRelationName (m.outputName true) (target.outputName true)

variable {o : Options} {dm : DataModel}

theorem Field.renamed_isRelation (f : Field) : (f.renamed dm).isRelation = f.isRelation := rfl

theorem Model.renamed_idField? (m : Model) :
    (m.renamed dm).idField? = m.idField?.map (·.renamed dm) := by
  rw [idField?, renamed, List.find?_map]
  rfl

theorem Model.renamed_isUniqueKey (m : Model) : (m.renamed dm).isUniqueKey = m.isUniqueKey := by
  have hfield (name : String) :
      (m.renamed dm).field? name = (m.field? name).map (·.renamed dm) := by
    rw [field?, renamed, List.find?_map]
    rfl
  funext fields
  unfold isUniqueKey
  split
  · rw [hfield]
    cases m.field? _ <;> rfl
  · rfl

theorem Model.renamed_hasId (m : Model) : (m.renamed dm).HasId ↔ m.HasId := by
  simp only [HasId, renamed, List.mem_map]
  constructor
  · rintro ⟨_, ⟨f, hf, rfl⟩, hid⟩
    exact ⟨f, hf, hid⟩
  · rintro ⟨f, hf, hid⟩
    exact ⟨_, ⟨f, hf, rfl⟩, hid⟩

/-! ## Ends and relations -/

namespace DataModel

theorem relationFields_renamed (dm : DataModel) :
    dm.renamed.relationFields = dm.relationFields.map (·.renamed dm) := by
  simp only [relationFields, renamed, List.zipIdx_map, List.flatMap_map, List.map_flatMap,
    List.map_map]
  refine List.flatMap_congr ?_
  rintro ⟨m, i⟩ -
  simp only [Prod.map, Model.renamed, List.zipIdx_map, List.filter_map, List.map_map]
  rfl

namespace Renamable

variable (h : dm.Renamable)
include h

theorem outputName_eq_iff {m m' : Model} (hm : m ∈ dm.models) (hm' : m' ∈ dm.models) :
    m.outputName true = m'.outputName true ↔ m.name = m'.name := by
  constructor
  · intro ho
    rw [List.inj_on_of_nodup_map h.tableNames hm hm' ho]
  · intro hn
    rw [List.inj_on_of_nodup_map h.names hm hm' hn]

theorem model?_renamed {name : String} {m : Model} (hm : dm.model? name = some m) :
    dm.mappedName name = m.outputName true ∧
      dm.renamed.model? (m.outputName true) = some (m.renamed dm) := by
  refine ⟨by rw [mappedName, hm], ?_⟩
  obtain ⟨hmem, -⟩ := mem_of_model? hm
  have hfind : dm.models.find? (fun m' => m'.outputName true == m.outputName true) = some m := by
    have hs : (dm.models.find? (fun m' => m'.outputName true == m.outputName true)).isSome :=
      List.find?_isSome.mpr ⟨m, hmem, beq_self_eq_true _⟩
    obtain ⟨m', hm'⟩ := Option.isSome_iff_exists.mp hs
    have hname := List.find?_some hm'
    rw [hm', List.inj_on_of_nodup_map h.tableNames (List.mem_of_find?_eq_some hm') hmem
      (eq_of_beq hname)]
  rw [model?, renamed, List.find?_map]
  exact congrArg (Option.map _) hfind

/-- Every side of a relation points at a model of the data model. -/
theorem exists_model? {m : Model} (hm : m ∈ dm.models) {f : Field} (hf : f ∈ m.fields)
    (hk : f.isRelation = true) : ∃ target, dm.model? f.type = some target := by
  obtain ⟨target, ht, hname, -⟩ := h.declared m hm f hf hk
  exact Option.isSome_iff_exists.mp (List.find?_isSome.mpr ⟨target, ht, beq_iff_eq.mpr hname⟩)

theorem endpoint_renamed {x : RelationField} (hx : dm.HasRelationField x) {e' : Endpoint} :
    dm.renamed.endpoint (x.renamed dm) = .ok e' ↔
      ∃ e, dm.endpoint x = .ok e ∧ e' = e.renamed dm := by
  have hk : x.field.isRelation = true := decide_eq_true hx.isObject
  obtain ⟨target, ht⟩ := h.exists_model? (List.mem_of_getElem? hx.owner)
    (List.mem_of_getElem? hx.field) hk
  obtain ⟨hname, ht'⟩ := h.model?_renamed ht
  have htype : (x.renamed dm).field.type = target.outputName true := by
    rw [← hname]
    exact if_pos hk
  rw [endpoint, htype, ht', endpoint, ht]
  simp [Endpoint.renamed, eq_comm]

theorem exists_endpoints :
    ∃ ends, dm.endpoints = .ok ends ∧
      dm.renamed.endpoints = .ok (ends.map (·.renamed dm)) := by
  obtain ⟨ends, he⟩ := exists_endpoints_iff.mpr fun x hx => by
    obtain ⟨target, ht, hname, -⟩ := h.declared x.owner (List.mem_of_getElem? hx.owner) x.field
      (List.mem_of_getElem? hx.field) (decide_eq_true hx.isObject)
    exact ⟨target, ht, hname⟩
  refine ⟨ends, he, ?_⟩
  rw [endpoints, relationFields_renamed]
  refine (mapM_map_eq_ok_iff fun x hx e' => h.endpoint_renamed (mem_relationFields.mp hx)).mpr ?_
  exact ⟨ends, he, rfl⟩

/-- Renaming keeps the names of relations and, as it makes no two names one, the keys apart. -/
theorem keepsKeys {ends : List Endpoint} (he : dm.endpoints = .ok ends) :
    Grouping.KeepsKeys (·.renamed dm) ends := by
  have hends := (endpoints_eq_ok he).2
  have hmodels (e : Endpoint) (hm : e ∈ ends) :
      e.owner ∈ dm.models ∧ e.target ∈ dm.models ∧ ∃ name, e.field.relationName = some name ∧
        name ≠ defaultRelationName e.owner.name e.target.name ∧
        name ≠ defaultRelationName (e.owner.outputName true) (e.target.outputName true) := by
    obtain ⟨hx, ht⟩ := hends e hm
    have ho := List.mem_of_getElem? hx.owner
    have htm := mem_of_model? ht
    obtain ⟨target, htarget, hname, name, hn⟩ := h.declared e.owner ho e.field
      (List.mem_of_getElem? hx.field) (decide_eq_true hx.isObject)
    obtain rfl : target = e.target :=
      List.inj_on_of_nodup_map h.names htarget htm.1 (hname.trans htm.2.symm)
    exact ⟨ho, htarget, name, hn⟩
  have hname (e : Endpoint) (hm : e ∈ ends) : (e.renamed dm).relationName = e.relationName := by
    obtain ⟨-, -, name, hn, -⟩ := hmodels e hm
    have hn' : (e.renamed dm).field.relationName = some name := hn
    simp only [RelationField.relationName, effectiveName, hn, hn', Option.getD_some]
  refine ⟨hname, fun e hm => ?_, fun e hm e' hm' => ?_⟩
  · obtain ⟨-, -, name, hn, hne, hne'⟩ := hmodels e hm
    have hn' : (e.renamed dm).field.relationName = some name := hn
    have hne'' : name ≠ defaultRelationName (e.renamed dm).owner.name (e.renamed dm).target.name :=
      hne'
    simp only [Endpoint.isExplicit, isExplicitName, hn, hn', hne, hne'', decide_true, ne_eq,
      not_false_eq_true]
  · obtain ⟨ho, ht, -⟩ := hmodels e hm
    obtain ⟨ho', ht', -⟩ := hmodels e' hm'
    have hpair : s((e.renamed dm).owner.name, (e.renamed dm).target.name) =
          s((e'.renamed dm).owner.name, (e'.renamed dm).target.name) ↔
        s(e.owner.name, e.target.name) = s(e'.owner.name, e'.target.name) := by
      simp only [Sym2.eq_iff]
      exact or_congr
        (and_congr (h.outputName_eq_iff ho ho') (h.outputName_eq_iff ht ht'))
        (and_congr (h.outputName_eq_iff ho ht') (h.outputName_eq_iff ht ho'))
    rw [Endpoint.key_eq_iff, Endpoint.key_eq_iff, hname e hm, hname e' hm', hpair]

end Renamable

theorem keepsSides_renamed (dm : DataModel) : Relation.KeepsSides (·.renamed dm) where
  position _ := rfl
  relation _ := rfl
  isList _ := rfl
  isUniqueKey e := e.owner.renamed_isUniqueKey

theorem Renamable.relations_renamed (h : dm.Renamable) {rs' : List Relation} :
    dm.renamed.relations = .ok rs' ↔
      ∃ rs, dm.relations = .ok rs ∧ rs' = rs.map (Relation.map (·.renamed dm)) := by
  obtain ⟨ends, he, he'⟩ := h.exists_endpoints
  exact relations_map he he' (h.keepsKeys he) (keepsSides_renamed dm)

end DataModel

/-! ## Tables -/

section

variable {m : Model}

theorem shownFields_renamed :
    o.withModelNames.shownFields (m.renamed dm) =
      (o.withTableNames.shownFields m).map (·.renamed dm) := by
  rw [Options.shownFields, Options.shownFields, Model.renamed, List.filter_map]
  rfl

theorem DataModel.Renamable.rowType_renamed (h : dm.Renamable) (hm : m ∈ dm.models) {f : Field}
    (hf : f ∈ m.fields) :
    o.withModelNames.rowType dm.renamed (f.renamed dm) = o.withTableNames.rowType dm f := by
  by_cases hk : f.isRelation = true
  · obtain ⟨target, ht⟩ := h.exists_model? hm hf hk
    obtain ⟨hname, ht'⟩ := h.model?_renamed ht
    have htype : (f.renamed dm).type = target.outputName true := by
      rw [← hname]
      exact if_pos hk
    rw [rowType_eq_tableName hk ht, rowType_eq_tableName (f.renamed_isRelation.trans hk)
      (htype ▸ ht')]
    rfl
  · have htype : (f.renamed dm).type = f.type := if_neg hk
    rw [Options.rowType, Options.rowType, htype, Field.renamed_isRelation, if_neg hk, if_neg hk]
    rfl

theorem DataModel.Renamable.table_renamed (h : dm.Renamable) (hm : m ∈ dm.models) {b : Table} :
    o.withModelNames.table dm.renamed (m.renamed dm) = .ok b ↔
      o.withTableNames.table dm m = .ok b := by
  have hrow (f : Field) (hf : f ∈ o.withTableNames.shownFields m) (r : Row) :
      o.withModelNames.row dm.renamed (m.renamed dm) (f.renamed dm) = .ok r ↔
        o.withTableNames.row dm m f = .ok r := by
    simp only [row_eq_ok_iff, columnSettings_eq_ok_iff,
      h.rowType_renamed hm (mem_shownFields.mp hf).1]
    rfl
  rw [table_eq_ok_iff, table_eq_ok_iff, shownFields_renamed, mapM_map_congr hrow]
  rfl

end

theorem reference?_renamed (r : Relation) :
    o.withModelNames.reference? (r.map (·.renamed dm)) = o.withTableNames.reference? r := by
  cases r <;> rfl

/-! ## Join tables -/

/-- Whether the field that a relation between lists references has the same type after
renaming. -/
def Endpoint.KeepsIdType (dm : DataModel) (e : Endpoint) : Prop :=
  ∀ id, e.target.idField? = some id → (id.renamed dm).type = id.type

/-- Two columns that differ at most in their types. -/
def JoinColumn.SameButType (c c' : JoinColumn) : Prop := c' = { c with type := c'.type }

/-- Two join tables that differ at most in the types of their columns. -/
structure JoinTable.SameButTypes (j j' : JoinTable) : Prop where
  name : j'.name = j.name
  first : j.first.SameButType j'.first
  second : j.second.SameButType j'.second

theorem joinColumn_renamed {explicit : Bool} {e : Endpoint} {c c' : JoinColumn}
    (hc : o.withTableNames.joinColumn explicit e = .ok c)
    (hc' : o.withModelNames.joinColumn explicit (e.renamed dm) = .ok c') :
    c.SameButType c' ∧ (c' = c ↔ e.KeepsIdType dm) := by
  obtain ⟨id, hid, rfl⟩ := joinColumn_eq_ok_iff.mp hc
  obtain ⟨id', hid', rfl⟩ := joinColumn_eq_ok_iff.mp hc'
  have hren : (e.renamed dm).target.idField? = some (id.renamed dm) := by
    rw [Endpoint.renamed, Model.renamed_idField?, hid]
    rfl
  obtain rfl := Option.some.inj (hren.symm.trans hid')
  refine ⟨rfl, ?_⟩
  have hkeeps : e.KeepsIdType dm ↔ (id.renamed dm).type = id.type := by
    simp [Endpoint.KeepsIdType, hid]
  rw [hkeeps]
  constructor
  · intro heq
    exact congrArg JoinColumn.type heq
  · intro htype
    rw [htype]
    rfl

theorem joinTable_renamed {r : ManyToMany} {j j' : JoinTable}
    (hj : o.withTableNames.joinTable r = .ok j)
    (hj' : o.withModelNames.joinTable
      { r with first := r.first.renamed dm, second := r.second.renamed dm } = .ok j') :
    j.SameButTypes j' ∧ (j' = j ↔ r.first.KeepsIdType dm ∧ r.second.KeepsIdType dm) := by
  obtain ⟨hn, hf, hs⟩ := joinTable_eq_ok_iff.mp hj
  obtain ⟨hn', hf', hs'⟩ := joinTable_eq_ok_iff.mp hj'
  obtain ⟨hfirst, hfirst_iff⟩ := joinColumn_renamed hf hf'
  obtain ⟨hsecond, hsecond_iff⟩ := joinColumn_renamed hs hs'
  refine ⟨⟨hn'.trans hn.symm, hfirst, hsecond⟩, ?_⟩
  rw [← hfirst_iff, ← hsecond_iff]
  constructor
  · rintro rfl
    exact ⟨rfl, rfl⟩
  · rintro ⟨h₁, h₂⟩
    cases j
    cases j'
    exact (JoinTable.mk.injEq ..).mpr ⟨hn'.trans hn.symm, h₁, h₂⟩

/-- Two walks over the same things whose results are the same at a step iff it has `p`. -/
theorem forall₂_and_eq_iff {α β : Type} {R R' : α → β → Prop} {S : β → β → Prop} {p : α → Prop}
    {xs : List α} {ys ys' : List β} (h : List.Forall₂ R xs ys) (h' : List.Forall₂ R' xs ys')
    (hstep : ∀ x y y', R x y → R' x y' → S y y' ∧ (y' = y ↔ p x)) :
    List.Forall₂ S ys ys' ∧ (ys' = ys ↔ ∀ x ∈ xs, p x) := by
  induction h generalizing ys' with
  | nil =>
    obtain rfl := List.forall₂_nil_left_iff.mp h'
    exact ⟨.nil, by simp⟩
  | cons hx _ ih =>
    obtain ⟨y', ys', hx', hxs', rfl⟩ := List.forall₂_cons_left_iff.mp h'
    obtain ⟨hs, heq⟩ := hstep _ _ _ hx hx'
    obtain ⟨hss, hseq⟩ := ih hxs'
    exact ⟨.cons hs hss, by rw [List.cons.injEq, heq, hseq, List.forall_mem_cons]⟩

theorem joinTables_renamed {rs : List Relation} {js js' : List JoinTable}
    (hj : o.withTableNames.joinTables rs = .ok js)
    (hj' : o.withModelNames.joinTables (rs.map (Relation.map (·.renamed dm))) = .ok js') :
    List.Forall₂ JoinTable.SameButTypes js js' ∧
      (js' = js ↔ (o.manyToMany = true → ∀ r, .manyToMany r ∈ rs →
        r.first.KeepsIdType dm ∧ r.second.KeepsIdType dm)) := by
  have hw : o.withTableNames.manyToMany = o.manyToMany := rfl
  have hw' : o.withModelNames.manyToMany = o.manyToMany := rfl
  rw [Options.joinTables, hw] at hj
  rw [Options.joinTables, hw'] at hj'
  by_cases hm : o.manyToMany = true
  · rw [if_pos hm, mapM_eq_ok_iff] at hj
    rw [if_pos hm, Relation.manyToMany?_map, mapM_eq_ok_iff, List.forall₂_map_left_iff] at hj'
    obtain ⟨hsame, heq⟩ := forall₂_and_eq_iff hj hj' fun r j j' h h' => joinTable_renamed h h'
    refine ⟨hsame, heq.trans ?_⟩
    simp [hm, List.mem_filterMap, Relation.manyToMany?_eq_some_iff]
  · rw [if_neg hm] at hj hj'
    obtain rfl := Except.ok.inj hj
    obtain rfl := Except.ok.inj hj'
    exact ⟨.nil, by simp [hm]⟩

/-! ## Documents -/

theorem exists_document_renamed (h : dm.Renamable) :
    (∃ d, o.withTableNames.document dm = .ok d) ↔
      ∃ d, o.withModelNames.document dm.renamed = .ok d := by
  have hshown : (∀ m ∈ dm.renamed.models, ∀ f ∈ o.withModelNames.shownFields m,
        ¬ f.HasUnsupportedDefault) ↔
      ∀ m ∈ dm.models, ∀ f ∈ o.withTableNames.shownFields m, ¬ f.HasUnsupportedDefault := by
    simp only [DataModel.renamed, List.forall_mem_map, shownFields_renamed]
    rfl
  have hids (rs : List Relation) :
      (∀ r, .manyToMany r ∈ rs.map (Relation.map (·.renamed dm)) →
        r.first.target.HasId ∧ r.second.target.HasId) ↔
      ∀ r, .manyToMany r ∈ rs → r.first.target.HasId ∧ r.second.target.HasId := by
    rw [← forall_mem_listEnds (p := (·.target.HasId)),
      ← forall_mem_listEnds (p := (·.target.HasId))]
    simp only [listEnds, Relation.manyToMany?_map, List.flatMap_map, List.forall_mem_flatMap,
      List.forall_mem_cons, Endpoint.renamed, Model.renamed_hasId]
  simp only [exists_document_iff, h.relations_renamed, hshown]
  constructor
  · rintro ⟨rs, hr, hs, hi⟩
    exact ⟨_, ⟨rs, hr, rfl⟩, hs, fun hm => (hids rs).mpr (hi hm)⟩
  · rintro ⟨_, ⟨rs, hr, rfl⟩, hs, hi⟩
    exact ⟨rs, hr, hs, fun hm => (hids rs).mp (hi hm)⟩

/-- A data model has a document with names of tables iff it has one after it is renamed. The
two documents are the same but for types of columns in join tables, and they are the same
iff every field that a column of a join table references keeps its type. -/
theorem render_renamed (h : dm.Renamable) (o : Options) :
    ((∃ t, o.withTableNames.render dm = .ok t) ↔
      ∃ t, o.withModelNames.render dm.renamed = .ok t) ∧
    ∀ t t', o.withTableNames.render dm = .ok t → o.withModelNames.render dm.renamed = .ok t' →
      ∃ (d d' : Document) (rs : List Relation), d.text = t ∧ d'.text = t' ∧ dm.relations = .ok rs ∧
        d'.project = d.project ∧ d'.tables = d.tables ∧ d'.enums = d.enums ∧
        d'.references = d.references ∧
        List.Forall₂ JoinTable.SameButTypes d.joinTables d'.joinTables ∧
        (d' = d ↔ (o.manyToMany = true → ∀ r, .manyToMany r ∈ rs →
          r.first.KeepsIdType dm ∧ r.second.KeepsIdType dm)) := by
  simp only [render_eq_ok_iff]
  constructor
  · have hdoc := exists_document_renamed (o := o) h
    constructor
    · rintro ⟨-, d, hd, -⟩
      obtain ⟨d', hd'⟩ := hdoc.mp ⟨d, hd⟩
      exact ⟨_, d', hd', rfl⟩
    · rintro ⟨-, d', hd', -⟩
      obtain ⟨d, hd⟩ := hdoc.mpr ⟨d', hd'⟩
      exact ⟨_, d, hd, rfl⟩
  · rintro t t' ⟨d, hd, rfl⟩ ⟨d', hd', rfl⟩
    obtain ⟨rs, hrs, ht, hj, hp, he, hr⟩ := document_eq_ok_iff.mp hd
    obtain ⟨rs', hrs', ht', hj', hp', he', hr'⟩ := document_eq_ok_iff.mp hd'
    obtain ⟨_, hrs₂, rfl⟩ := h.relations_renamed.mp hrs'
    obtain rfl := Except.ok.inj (hrs.symm.trans hrs₂)
    obtain ⟨hsame, heq⟩ := joinTables_renamed hj hj'
    have htables : d'.tables = d.tables := by
      have hsame := (mapM_map_congr fun m hm b => h.table_renamed hm).mp ht'
      exact Except.ok.inj (hsame.symm.trans ht)
    have hrefs : d'.references = d.references := by
      rw [hr, hr', List.filterMap_map]
      exact List.filterMap_congr fun r _ => reference?_renamed r
    refine ⟨d, d', rs, rfl, rfl, hrs, hp'.trans hp.symm, htables, he'.trans he.symm, hrefs,
      hsame, ?_⟩
    rw [← heq]
    constructor
    · rintro rfl
      rfl
    · intro hjoins
      cases d
      cases d'
      exact (Document.mk.injEq ..).mpr
        ⟨hp'.trans hp.symm, htables, he'.trans he.symm, hrefs, hjoins⟩

/-! ## Seats, by number or by owner -/

namespace Seats

/-- A side of a relation that is called `relation`. -/
def side (name type relation : String) : Field :=
  { name, kind := .object, type, relation := some { name := some relation } }

def owner : Field :=
  { side "owner" "User" "occupies" with
    relation := some { name := some "occupies", fromFields := ["ownerId"], toFields := ["id"] } }

def user : Model where
  name := "User"
  dbName := some "users"
  fields := [Blog.id, side "seat" "Seat" "occupies",
    { side "watched" "Seat" "watches" with isList := true }]

/-- Seats have a number, but may be identified by their owners. -/
def seat (byOwner : Bool) : Model where
  name := "Seat"
  fields := [{ Blog.id with isId := !byOwner }, { owner with isId := byOwner },
    { name := "ownerId", kind := .scalar, type := "Int", isUnique := true },
    { side "watchers" "User" "watches" with isList := true }]

def dataModel (byOwner : Bool) : DataModel := { models := [user, seat byOwner] }

theorem renamable (byOwner : Bool) : (dataModel byOwner).Renamable where
  names := by cases byOwner <;> decide
  tableNames := by cases byOwner <;> decide
  declared := by
    intro m hm f hf hk
    simp only [dataModel, List.mem_pair] at hm
    rcases hm with rfl | rfl
    · simp only [user, List.mem_cons, List.not_mem_nil, or_false] at hf
      rcases hf with rfl | rfl | rfl
      · cases hk
      · exact ⟨seat byOwner, by simp [dataModel], rfl, _, rfl, by decide +revert, by decide +revert⟩
      · exact ⟨seat byOwner, by simp [dataModel], rfl, _, rfl, by decide +revert, by decide +revert⟩
    · simp only [seat, List.mem_cons, List.not_mem_nil, or_false] at hf
      rcases hf with rfl | rfl | rfl | rfl
      · cases hk
      · exact ⟨user, by simp [dataModel], rfl, _, rfl, by decide +revert, by decide +revert⟩
      · cases hk
      · exact ⟨user, by simp [dataModel], rfl, _, rfl, by decide +revert, by decide +revert⟩

def options : Options := {}

/-- The document, whose join table has a column of the type `type` for the seats watched. -/
def document (byOwner : Bool) (type : String) : Document where
  project := none
  tables := [
    { name := "users"
      rows := [⟨"id", "Int", [.pk]⟩, ⟨"seat", "Seat", []⟩, ⟨"watched", "Seat", []⟩]
      indexes := []
      note := none },
    { name := "Seat"
      rows := [⟨"id", "Int", settingIf (!byOwner) .pk⟩, ⟨"owner", "users", settingIf byOwner .pk⟩,
        ⟨"ownerId", "Int", [.unique]⟩, ⟨"watchers", "users", []⟩]
      indexes := []
      note := none }]
  enums := []
  references := [⟨"Seat", ["ownerId"], true, "users", ["id"], none⟩]
  joinTables := [⟨"watches", ⟨"watchedId", type, "Seat", if byOwner then "owner" else "id"⟩,
    ⟨"watchersId", "Int", "users", "id"⟩⟩]

theorem documents_eq (byOwner : Bool) :
    options.withTableNames.document (dataModel byOwner) =
      .ok (document byOwner (if byOwner then "User" else "Int")) ∧
    options.withModelNames.document (dataModel byOwner).renamed =
      .ok (document byOwner (if byOwner then "users" else "Int")) := by
  simp only [Options.document, DataModel.relations_eq_insertionSort]
  cases byOwner
  · exact ⟨by with_unfolding_all rfl, by with_unfolding_all rfl⟩
  · exact ⟨by with_unfolding_all rfl, by with_unfolding_all rfl⟩

theorem render_eq (byOwner : Bool) :
    options.withTableNames.render (dataModel byOwner) =
      .ok (document byOwner (if byOwner then "User" else "Int")).text ∧
    options.withModelNames.render (dataModel byOwner).renamed =
      .ok (document byOwner (if byOwner then "users" else "Int")).text :=
  ⟨render_eq_ok_iff.mpr ⟨_, (documents_eq byOwner).1, rfl⟩,
    render_eq_ok_iff.mpr ⟨_, (documents_eq byOwner).2, rfl⟩⟩

/-- Seats by number have the same document after renaming. -/
theorem renamed_agrees :
    (dataModel false).Renamable ∧
    (∃ t, options.withTableNames.render (dataModel false) = .ok t ∧
      options.withModelNames.render (dataModel false).renamed = .ok t) := by
  obtain ⟨hr, hr'⟩ := render_eq false
  obtain ⟨-, hsame⟩ := render_renamed (renamable false) options
  obtain ⟨d, d', rs, ht, ht', hrs, -, -, -, -, -, heq⟩ := hsame _ _ hr hr'
  have hid (m : Model) (hm : m ∈ (dataModel false).models) (id : Field)
      (h : m.idField? = some id) : (id.renamed (dataModel false)).type = id.type := by
    simp only [dataModel, List.mem_pair] at hm
    rcases hm with rfl | rfl <;> obtain rfl := Option.some.inj h <;> rfl
  have hkeeps (e : Endpoint) (he : (dataModel false).HasEnd e) : e.KeepsIdType (dataModel false) :=
    hid e.target (DataModel.mem_of_model? he.target).1
  obtain rfl := heq.mpr fun _ r hr => by
    obtain ⟨hf, hs, -⟩ := DataModel.ends_of_mem_relations hrs hr
    exact ⟨hkeeps _ hf, hkeeps _ hs⟩
  exact ⟨renamable false, _, hr, by rw [hr', ← ht', ht]⟩

/-- Seats by owner have two: a column of the join table has the type `User`, which is the name
of no table, and after renaming `users`. -/
theorem renamed_differs :
    (dataModel true).Renamable ∧
    ∃ t t', options.withTableNames.render (dataModel true) = .ok t ∧
      options.withModelNames.render (dataModel true).renamed = .ok t' ∧ t ≠ t' :=
  ⟨renamable true, _, _, (render_eq true).1, (render_eq true).2, by decide +kernel⟩

end Seats

end Dbml
