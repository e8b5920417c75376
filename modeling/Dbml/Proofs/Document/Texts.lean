import Dbml.Proofs.Document.Blocks
import Dbml.Proofs.Document.Names
import Dbml.Proofs.Schema.Reading

/-!
# Documents without line feeds in their data

Where no text of a data model (`DataModel.texts`) has a line feed, each line of a document is
written as one line (`DataModel.Unbroken.parts`). The values inside the arguments of a default are
printed as JSON, in which there is none.
-/

namespace Dbml

open Text

/-! ## The texts of a project -/

def Project.texts (p : Project) : List String := p.name :: (p.databaseType.toList ++ p.note.toList)

/-- The texts of the project that a document opens with. -/
def Options.texts (o : Options) : List String := o.project.toList.flatMap Project.texts

/-! ## On one line -/

def RelationSide.Unbroken (s : RelationSide) : Prop := ∀ t ∈ s.texts, Text.OneLine t

def Field.Unbroken (f : Field) : Prop := ∀ t ∈ f.texts, Text.OneLine t

def Model.Unbroken (m : Model) : Prop := ∀ t ∈ m.texts, Text.OneLine t

def Enumeration.Unbroken (e : Enumeration) : Prop := ∀ t ∈ e.texts, Text.OneLine t

/-- No text of a data model has a line feed. -/
def DataModel.Unbroken (dm : DataModel) : Prop := ∀ t ∈ dm.texts, Text.OneLine t

/-- No text of a project has a line feed. -/
def Options.Unbroken (o : Options) : Prop := ∀ t ∈ o.texts, Text.OneLine t

instance (dm : DataModel) : Decidable dm.Unbroken := List.decidableBAll _ _

instance (o : Options) : Decidable o.Unbroken := List.decidableBAll _ _

variable {o : Options} {dm : DataModel} {d : Document} {m : Model} {f : Field}

theorem ColumnDefault.oneLine_of_texts {x : ColumnDefault} (h : ∀ t ∈ x.texts, Text.OneLine t) :
    x.OneLine := by
  cases x with
  | string value | member value => exact h _ List.mem_cons_self
  | generated name args => exact h _ List.mem_cons_self
  | number | boolean | unsupported => trivial

namespace Field.Unbroken

theorem name (h : f.Unbroken) : Text.OneLine f.name := h _ List.mem_cons_self

theorem type (h : f.Unbroken) : Text.OneLine f.type :=
  h _ (List.mem_cons_of_mem _ List.mem_cons_self)

theorem rest (h : f.Unbroken) :
    (∀ t ∈ f.default.toList.flatMap ColumnDefault.texts, Text.OneLine t) ∧
      (∀ t ∈ f.documentation.toList, Text.OneLine t) ∧
      ∀ t ∈ f.relation.toList.flatMap RelationSide.texts, Text.OneLine t := by
  have hrest := (List.forall_mem_cons.mp (List.forall_mem_cons.mp h).2).2
  simpa only [List.forall_mem_append, and_assoc] using hrest

theorem default (h : f.Unbroken) : ∀ d ∈ f.default, d.OneLine := fun _ hd =>
  ColumnDefault.oneLine_of_texts fun t ht =>
    h.rest.1 t (List.mem_flatMap.mpr ⟨_, Option.mem_toList.mpr hd, ht⟩)

theorem documentation (h : f.Unbroken) : ∀ t ∈ f.documentation, Text.OneLine t :=
  fun t ht => h.rest.2.1 t (Option.mem_toList.mpr ht)

theorem relation (h : f.Unbroken) {s : RelationSide} (hs : f.relation = some s) : s.Unbroken :=
  fun t ht => h.rest.2.2 t (List.mem_flatMap.mpr ⟨s, Option.mem_toList.mpr hs, ht⟩)

theorem fromFields (h : f.Unbroken) : ∀ c ∈ f.fromFields, Text.OneLine c := by
  unfold Field.fromFields
  cases hs : f.relation with
  | none => nofun
  | some s => exact fun c hc => h.relation hs c (by simp_all [RelationSide.texts])

theorem toFields (h : f.Unbroken) : ∀ c ∈ f.toFields, Text.OneLine c := by
  unfold Field.toFields
  cases hs : f.relation with
  | none => nofun
  | some s => exact fun c hc => h.relation hs c (by simp_all [RelationSide.texts])

theorem relationName (h : f.Unbroken) : ∀ n ∈ f.relationName, Text.OneLine n := by
  intro n hn
  obtain ⟨s, hs, hname⟩ := Option.bind_eq_some_iff.mp hn
  exact h.relation hs n (by simp [RelationSide.texts, hname])

end Field.Unbroken

namespace Model.Unbroken

theorem name (h : m.Unbroken) : Text.OneLine m.name := h _ List.mem_cons_self

theorem field (h : m.Unbroken) (hf : f ∈ m.fields) : f.Unbroken := by
  intro t ht
  refine h t (List.mem_cons_of_mem _ ?_)
  simp only [List.mem_append, List.mem_flatMap]
  exact .inl (.inl (.inl (.inr ⟨f, hf, ht⟩)))

theorem dbName (h : m.Unbroken) : ∀ n ∈ m.dbName, Text.OneLine n :=
  fun n hn => h n (by simp_all [texts])

theorem documentation (h : m.Unbroken) : ∀ t ∈ m.documentation, Text.OneLine t :=
  fun t ht => h t (by simp_all [texts])

theorem primaryKey (h : m.Unbroken) : ∀ key ∈ m.primaryKey, ∀ c ∈ key, Text.OneLine c :=
  fun key hkey c hc => h c (by simp_all [texts])

theorem uniqueFields (h : m.Unbroken) : ∀ key ∈ m.uniqueFields, ∀ c ∈ key, Text.OneLine c := by
  intro key hkey c hc
  refine h c (List.mem_cons_of_mem _ (List.mem_append_right _ ?_))
  exact List.mem_flatten.mpr ⟨key, hkey, hc⟩

theorem tableName (h : m.Unbroken) (o : Options) : Text.OneLine (o.tableName m) := by
  unfold Options.tableName Model.outputName
  split
  · cases hn : m.dbName with
    | none => exact h.name
    | some name => exact h.dbName name hn
  · exact h.name

theorem indexes (h : m.Unbroken) : ∀ i ∈ m.indexes, ∀ c ∈ i.columns, Text.OneLine c := by
  simp only [Model.indexes, List.forall_mem_append, List.forall_mem_map, Option.mem_toList]
  constructor
  · intro i hi
    obtain ⟨key, hkey, rfl⟩ := Option.map_eq_some_iff.mp hi
    exact h.primaryKey key (Option.filter_eq_some_iff.mp hkey).1
  · exact fun key hkey => h.uniqueFields key (List.mem_filter.mp hkey).1

end Model.Unbroken

theorem oneLine_defaultRelationName {a b : String} (ha : Text.OneLine a) (hb : Text.OneLine b) :
    Text.OneLine (defaultRelationName a b) := by
  unfold defaultRelationName
  split
  · exact oneLine_surrounded ha hb (by decide)
  · exact oneLine_surrounded hb ha (by decide)

namespace DataModel.Unbroken

theorem model (h : dm.Unbroken) (hm : m ∈ dm.models) : m.Unbroken := fun t ht =>
  h t (List.mem_append_left _ (List.mem_flatMap.mpr ⟨m, hm, ht⟩))

theorem enumeration (h : dm.Unbroken) {e : Enumeration} (he : e ∈ dm.enums) : e.Unbroken :=
  fun t ht => h t (List.mem_append_right _ (List.mem_flatMap.mpr ⟨e, he, ht⟩))

theorem tableNameOf (h : dm.Unbroken) {name : String} (hn : Text.OneLine name) :
    Text.OneLine (o.tableNameOf dm name) := by
  unfold Options.tableNameOf
  split
  · rename_i m hm
    exact (h.model (DataModel.mem_of_model? hm).1).tableName o
  · exact hn

theorem rowType (h : dm.Unbroken) (hf : f.Unbroken) : Text.OneLine (o.rowType dm f) := by
  unfold Options.rowType
  split
  · exact h.tableNameOf hf.type
  · split
    · exact oneLine_append.mpr ⟨hf.type, by decide⟩
    · exact hf.type

theorem row (h : dm.Unbroken) (hf : f.Unbroken) {r : Row} (hr : o.row dm m f = .ok r) :
    Text.OneLine r.text := by
  obtain ⟨hname, htype, hs⟩ := row_eq_ok_iff.mp hr
  exact Row.oneLine_text (hname ▸ hf.name) (htype ▸ h.rowType hf)
    (oneLine_of_columnSettings hs hf.default hf.documentation)

theorem table (h : dm.Unbroken) (hm : m ∈ dm.models) {b : Table} (hb : o.table dm m = .ok b) :
    ∀ line ∈ b.lines, Text.OneLine line := by
  have hw := h.model hm
  obtain ⟨hname, hrows, hindexes, hnote⟩ := table_eq_ok_iff.mp hb
  refine Table.oneLine_lines (hname ▸ hw.tableName o) (fun r hr => ?_) (fun i hi => ?_) ?_
  · obtain ⟨f, hf, hrow⟩ := exists_of_mem_forall₂ (mapM_eq_ok_iff.mp hrows) hr
    exact h.row (hw.field (mem_shownFields.mp hf).1) hrow
  · exact Index.oneLine_text (hw.indexes i (hindexes ▸ hi))
  · intro text ht
    rw [hnote] at ht
    exact hw.documentation text (Option.filter_eq_some_iff.mp ht).1

/-- What an end of a relation says is said by the data model. -/
theorem hasEnd (h : dm.Unbroken) {e : Endpoint} (he : dm.HasEnd e) :
    e.owner.Unbroken ∧ e.field.Unbroken ∧ e.target.Unbroken := by
  have howner := h.model (List.mem_of_getElem? he.relationField.owner)
  exact ⟨howner, howner.field (List.mem_of_getElem? he.relationField.field),
    h.model (DataModel.mem_of_model? he.target).1⟩

theorem relationName (h : dm.Unbroken) {e : Endpoint} (he : dm.HasEnd e) :
    Text.OneLine e.relationName := by
  obtain ⟨howner, hfield, -⟩ := h.hasEnd he
  unfold RelationField.relationName effectiveName
  cases hn : e.field.relationName with
  | none => exact oneLine_defaultRelationName howner.name hfield.type
  | some name => exact hfield.relationName name hn

theorem reference (h : dm.Unbroken) {rs : List Relation} (hrs : dm.relations = .ok rs)
    {r : Relation} (hr : r ∈ rs) {ref : Reference} (href : o.reference? r = some ref) :
    Text.OneLine ref.text := by
  obtain ⟨-, heq⟩ := keyedPair_of_reference? hrs hr href
  obtain ⟨howner, hfield, htarget⟩ := h.hasEnd (DataModel.ends_of_mem_relations hrs hr).1
  rw [heq, reference?_keyed] at href
  obtain rfl := Option.some.inj href
  exact Reference.oneLine_text (howner.tableName o) hfield.fromFields (htarget.tableName o)
    hfield.toFields

theorem joinColumn (h : dm.Unbroken) {e : Endpoint} (he : dm.HasEnd e) {explicit : Bool}
    {c : JoinColumn} (hc : o.joinColumn explicit e = .ok c) : Text.OneLine c.text := by
  obtain ⟨-, hfield, htarget⟩ := h.hasEnd he
  obtain ⟨id, hid, rfl⟩ := joinColumn_eq_ok_iff.mp hc
  have hcolumn := htarget.field (List.mem_of_find?_eq_some hid)
  have hname : Text.OneLine (joinColumnName e.field.name explicit) := by
    unfold joinColumnName
    split
    · exact oneLine_append.mpr ⟨hfield.name.lowercase, by decide⟩
    · exact oneLine_append.mpr ⟨hfield.name, by decide⟩
  exact JoinColumn.oneLine_text hname hcolumn.type (htarget.tableName o) hcolumn.name

theorem joinTable (h : dm.Unbroken) {rs : List Relation} (hrs : dm.relations = .ok rs)
    {r : ManyToMany} (hr : .manyToMany r ∈ rs) {j : JoinTable} (hj : o.joinTable r = .ok j) :
    ∀ line ∈ j.lines, Text.OneLine line := by
  obtain ⟨hname, hfirst, hsecond⟩ := joinTable_eq_ok_iff.mp hj
  obtain ⟨ha, hb, -⟩ := DataModel.ends_of_mem_relations hrs hr
  have hword := (DataModel.lists_of_manyToMany hrs hr).1 ▸ h.relationName ha
  exact JoinTable.oneLine_lines (hname ▸ hword) (h.joinColumn ha hfirst) (h.joinColumn hb hsecond)

/-- Each line of a block is on one line. -/
theorem parts (h : dm.Unbroken) (hd : o.document dm = .ok d) :
    ∀ b ∈ d.parts, ∀ line ∈ b.lines, Text.OneLine line := by
  obtain ⟨rs, hrs, htables, hj, -, henums, hrefs⟩ := document_eq_ok_iff.mp hd
  simp only [Document.parts, List.forall_mem_append, List.forall_mem_map]
  refine ⟨⟨⟨fun b hb => ?_, fun e he => ?_⟩, fun ref href => ?_⟩, fun j hjm => ?_⟩
  · obtain ⟨m, hm, hmb⟩ := exists_of_mem_forall₂ (mapM_eq_ok_iff.mp htables) hb
    exact h.table hm hmb
  · obtain ⟨hname, hvalues⟩ := List.forall_mem_cons.mp (h.enumeration (henums ▸ he))
    exact Enumeration.oneLine_lines hname hvalues
  · rw [hrefs] at href
    obtain ⟨r, hr, href⟩ := List.mem_filterMap.mp href
    exact List.forall_mem_singleton.mpr (h.reference hrs hr href)
  · obtain ⟨r, hr, hjr⟩ := exists_of_mem_joinTables hj hjm
    exact h.joinTable hrs hr hjr

end DataModel.Unbroken

theorem Project.oneLine_lines {p : Project} (h : ∀ t ∈ p.texts, Text.OneLine t) :
    ∀ line ∈ p.lines, Text.OneLine line := by
  obtain ⟨hname, hrest⟩ := List.forall_mem_cons.mp h
  obtain ⟨htype, hnote⟩ := List.forall_mem_append.mp hrest
  have hline {label : String} (hlabel : Text.OneLine label) {text : Option String}
      (ht : ∀ t ∈ text.toList, Text.OneLine t) : ∀ line ∈ Project.line label text, Text.OneLine line := by
    intro line hline
    obtain ⟨t, htext, rfl⟩ := Option.map_eq_some_iff.mp (Option.mem_toList.mp hline)
    have hquote := (ht t (Option.mem_toList.mpr htext)).quote (d := '\'') (by decide)
    exact oneLine_append.mpr ⟨oneLine_surrounded (by decide) (by decide) hlabel, hquote⟩
  simp only [lines, List.forall_mem_cons, List.forall_mem_append]
  exact ⟨oneLine_surrounded (by decide) (by decide) (hname.quote (by decide)),
    ⟨hline (by decide) htype, hline (by decide) hnote⟩, oneLine_closing, nofun⟩

end Dbml
