import Dbml.Proofs.Document.Blocks
import Dbml.Proofs.Document.Names

/-!
# What a text was rendered from

The text of a document determines what was rendered, for data models whose names are
words and whose free texts are on one line (`DataModel.Worded`): two such data models with
one text have one document, and so they agree in all that is shown of their models,
enumerations and relations (`render_unambiguous`). What is not shown may differ.
-/

namespace Dbml

open Text

/-! ## Data models of words -/

structure RelationSide.Worded (s : RelationSide) : Prop where
  name : ∀ name ∈ s.name, IsWord name
  fromFields : ∀ c ∈ s.fromFields, IsWord c
  toFields : ∀ c ∈ s.toFields, IsWord c

structure Field.Worded (f : Field) : Prop where
  name : IsWord f.name
  type : IsWord f.type
  default : ∀ d ∈ f.default, d.OneLine
  documentation : ∀ text ∈ f.documentation, OneLine text
  relation : ∀ s ∈ f.relation, s.Worded

structure Model.Worded (m : Model) : Prop where
  name : IsWord m.name
  dbName : ∀ name ∈ m.dbName, IsWord name
  fields : ∀ f ∈ m.fields, f.Worded
  documentation : ∀ text ∈ m.documentation, OneLine text
  primaryKey : ∀ key ∈ m.primaryKey, ∀ c ∈ key, IsWord c
  uniqueFields : ∀ key ∈ m.uniqueFields, ∀ c ∈ key, IsWord c

/-- Names are words, and free texts are on one line. -/
structure DataModel.Worded (dm : DataModel) : Prop where
  models : ∀ m ∈ dm.models, m.Worded
  enums : ∀ e ∈ dm.enums, e.Legible

/-! ## Their documents -/

variable {o : Options} {dm : DataModel} {d : Document} {m : Model} {f : Field}

theorem Model.Worded.tableName (h : m.Worded) (o : Options) : IsWord (o.tableName m) := by
  unfold Options.tableName Model.outputName
  split
  · cases hn : m.dbName with
    | none => exact h.name
    | some name => exact h.dbName name hn
  · exact h.name

namespace DataModel.Worded

theorem tableNameOf (h : dm.Worded) {name : String} (hn : IsWord name) :
    IsWord (o.tableNameOf dm name) := by
  unfold Options.tableNameOf
  split
  · rename_i m hm
    exact (h.models m (DataModel.mem_of_model? hm).1).tableName o
  · exact hn

theorem rowType (h : dm.Worded) (hf : f.Worded) : IsToken (o.rowType dm f) := by
  unfold Options.rowType
  split
  · exact (h.tableNameOf hf.type).isToken
  · split
    · exact hf.type.isToken.append (by decide)
    · exact hf.type.isToken

theorem row (h : dm.Worded) (hf : f.Worded) {r : Row} (hr : o.row dm m f = .ok r) : r.Legible := by
  obtain ⟨hname, htype, hs⟩ := row_eq_ok_iff.mp hr
  exact { name := hname ▸ hf.name.isToken, type := htype ▸ h.rowType hf,
          arranged := arranged_of_columnSettings hs,
          oneLine := oneLine_of_columnSettings hs hf.default hf.documentation }

end DataModel.Worded

theorem Model.Worded.indexes (h : m.Worded) : ∀ i ∈ m.indexes, IsKey i.columns := by
  simp only [Model.indexes, List.forall_mem_append, List.forall_mem_map, Option.mem_toList]
  constructor
  · intro i hi
    obtain ⟨key, hkey, rfl⟩ := Option.map_eq_some_iff.mp hi
    obtain ⟨hmem, hne⟩ := Option.filter_eq_some_iff.mp hkey
    exact ⟨of_decide_eq_true hne, h.primaryKey key hmem⟩
  · intro key hkey
    obtain ⟨hmem, hlen⟩ := List.mem_filter.mp hkey
    refine ⟨?_, h.uniqueFields key hmem⟩
    rintro rfl
    exact absurd hlen (by decide)

theorem DataModel.Worded.table (h : dm.Worded) (hm : m ∈ dm.models) {b : Table}
    (hb : o.table dm m = .ok b) : b.Legible := by
  have hw := h.models m hm
  obtain ⟨hname, hrows, hindexes, hnote⟩ := table_eq_ok_iff.mp hb
  refine ⟨hname ▸ hw.tableName o, fun r hr => ?_, hindexes ▸ hw.indexes, fun text ht => ?_⟩
  · obtain ⟨f, hf, hrow⟩ := exists_of_mem_forall₂ (mapM_eq_ok_iff.mp hrows) hr
    exact h.row (hw.fields f (mem_shownFields.mp hf).1) hrow
  · rw [hnote] at ht
    exact hw.documentation text (Option.filter_eq_some_iff.mp ht).1

theorem Field.Worded.fromFields (h : f.Worded) : ∀ c ∈ f.fromFields, IsWord c := by
  unfold Field.fromFields
  cases hs : f.relation with
  | none => nofun
  | some s => exact (h.relation s hs).fromFields

theorem Field.Worded.toFields (h : f.Worded) : ∀ c ∈ f.toFields, IsWord c := by
  unfold Field.toFields
  cases hs : f.relation with
  | none => nofun
  | some s => exact (h.relation s hs).toFields

/-- What a data model of words says of an end of a relation. -/
structure Endpoint.Worded (e : Endpoint) : Prop where
  owner : e.owner.Worded
  field : e.field.Worded
  target : e.target.Worded

theorem DataModel.Worded.hasEnd (h : dm.Worded) {e : Endpoint} (he : dm.HasEnd e) : e.Worded where
  owner := h.models _ (List.mem_of_getElem? he.relationField.owner)
  field := (h.models _ (List.mem_of_getElem? he.relationField.owner)).fields _
    (List.mem_of_getElem? he.relationField.field)
  target := h.models _ (DataModel.mem_of_model? he.target).1

theorem isWord_defaultRelationName {a b : String} (ha : IsWord a) (hb : IsWord b) :
    IsWord (defaultRelationName a b) := by
  have hto : IsWord "To" := by decide
  unfold defaultRelationName
  split
  · exact (ha.append hto).append hb
  · exact (hb.append hto).append ha

theorem Endpoint.Worded.relationName {e : Endpoint} (h : e.Worded) : IsWord e.relationName := by
  unfold RelationField.relationName effectiveName
  cases hn : e.field.relationName with
  | none => exact isWord_defaultRelationName h.owner.name h.field.type
  | some name =>
    obtain ⟨s, hs, hname⟩ := Option.bind_eq_some_iff.mp hn
    exact (h.field.relation s hs).name name hname

theorem DataModel.Worded.reference (h : dm.Worded) {rs : List Relation}
    (hrs : dm.relations = .ok rs) {r : Relation} (hr : r ∈ rs) {ref : Reference}
    (href : o.reference? r = some ref) : ref.Legible := by
  obtain ⟨hk, heq⟩ := keyedPair_of_reference? hrs hr href
  have hw := h.hasEnd (DataModel.ends_of_mem_relations hrs hr).1
  rw [heq, reference?_keyed] at href
  obtain rfl := Option.some.inj href
  have hto : r.anchor.field.toFields ≠ [] := by
    intro hnil
    have hlen := hk.lengths
    rw [hnil] at hlen
    exact hk.holds (List.eq_nil_of_length_eq_zero hlen.symm)
  exact { fromTable := hw.owner.tableName o, fromColumns := ⟨hk.holds, hw.field.fromFields⟩,
          toTable := hw.target.tableName o, toColumns := ⟨hto, hw.field.toFields⟩ }

theorem isToken_joinColumnName {name : String} (h : IsWord name) (explicit : Bool) :
    IsToken (joinColumnName name explicit) := by
  have hid : IsToken "Id" := by decide
  unfold joinColumnName
  split
  · exact h.isToken_lowercase.append hid
  · exact h.isToken.append hid

theorem Endpoint.Worded.joinColumn {e : Endpoint} (h : e.Worded) {explicit : Bool}
    {c : JoinColumn} (hc : o.joinColumn explicit e = .ok c) : c.Legible := by
  obtain ⟨id, hid, rfl⟩ := joinColumn_eq_ok_iff.mp hc
  have hw := h.target.fields id (List.mem_of_find?_eq_some hid)
  exact { name := isToken_joinColumnName h.field.name explicit, type := hw.type.isToken,
          table := h.target.tableName o, column := hw.name }

theorem DataModel.Worded.joinTable (h : dm.Worded) {rs : List Relation}
    (hrs : dm.relations = .ok rs) {r : ManyToMany} (hr : .manyToMany r ∈ rs) {j : JoinTable}
    (hj : o.joinTable r = .ok j) : j.Legible := by
  obtain ⟨hname, hfirst, hsecond⟩ := joinTable_eq_ok_iff.mp hj
  obtain ⟨ha, hb, -⟩ := DataModel.ends_of_mem_relations hrs hr
  have hword := (DataModel.lists_of_manyToMany hrs hr).1 ▸ (h.hasEnd ha).relationName
  exact ⟨hname ▸ hword, (h.hasEnd ha).joinColumn hfirst, (h.hasEnd hb).joinColumn hsecond⟩

theorem DataModel.Worded.document (h : dm.Worded) (hd : o.document dm = .ok d) : d.Legible := by
  obtain ⟨rs, hrs, htables, hj, -, henums, hrefs⟩ := document_eq_ok_iff.mp hd
  constructor
  case tables =>
    intro b hb
    obtain ⟨m, hm, hmb⟩ := exists_of_mem_forall₂ (mapM_eq_ok_iff.mp htables) hb
    exact h.table hm hmb
  case enums =>
    intro e he
    exact h.enums e (henums ▸ he)
  case references =>
    intro ref href
    rw [hrefs] at href
    obtain ⟨r, hr, href⟩ := List.mem_filterMap.mp href
    exact h.reference hrs hr href
  case joinTables =>
    intro j hjm
    obtain ⟨r, hr, hjr⟩ := exists_of_mem_joinTables hj hjm
    exact h.joinTable hrs hr hjr

/-! ## Two data models with one text -/

/-- Two models that are shown in the same way. -/
structure Options.ShowsAlike (o : Options) (dm dm' : DataModel) (m m' : Model) : Prop where
  tableName : o.tableName m = o.tableName m'
  rows : List.Forall₂ (fun f f' => f.name = f'.name ∧ o.rowType dm f = o.rowType dm' f' ∧
    ∃ settings, columnSettings m f = .ok settings ∧ columnSettings m' f' = .ok settings)
    (o.shownFields m) (o.shownFields m')
  primaryKey : m.primaryKey.filter (· ≠ []) = m'.primaryKey.filter (· ≠ [])
  uniqueFields : m.uniqueFields.filter (1 < ·.length) = m'.uniqueFields.filter (1 < ·.length)
  documentation : noteOf m.documentation = noteOf m'.documentation

/-- The columns of a primary key. -/
def Index.primary? : Index → Option (List String)
  | ⟨columns, .pk⟩ => some columns
  | _ => none

/-- The columns of a unique key. -/
def Index.unique? : Index → Option (List String)
  | ⟨columns, .unique⟩ => some columns
  | _ => none

theorem keys_of_indexes {m m' : Model} (h : m.indexes = m'.indexes) :
    m.primaryKey.filter (· ≠ []) = m'.primaryKey.filter (· ≠ []) ∧
      m.uniqueFields.filter (1 < ·.length) = m'.uniqueFields.filter (1 < ·.length) := by
  have hprimary (m : Model) :
      (m.indexes.filterMap Index.primary?).head? = m.primaryKey.filter (· ≠ []) := by
    rw [Model.indexes]
    cases m.primaryKey.filter (· ≠ []) <;> simp [Index.primary?]
  have hunique (m : Model) :
      m.indexes.filterMap Index.unique? = m.uniqueFields.filter (1 < ·.length) := by
    rw [Model.indexes]
    have hsome : (Index.unique? ∘ fun columns => ⟨columns, .unique⟩) = some := rfl
    cases m.primaryKey.filter (· ≠ []) <;> simp [List.filterMap_cons, Index.unique?, hsome]
  constructor
  · rw [← hprimary, ← hprimary, h]
  · rw [← hunique, ← hunique, h]

theorem showsAlike_of_table {dm' : DataModel} {m' : Model} {b : Table} (h : o.table dm m = .ok b)
    (h' : o.table dm' m' = .ok b) : o.ShowsAlike dm dm' m m' := by
  obtain ⟨hname, hrows, hindexes, hnote⟩ := table_eq_ok_iff.mp h
  obtain ⟨hname', hrows', hindexes', hnote'⟩ := table_eq_ok_iff.mp h'
  obtain ⟨hprimary, hunique⟩ := keys_of_indexes (hindexes.symm.trans hindexes')
  refine ⟨hname.symm.trans hname', ?_, hprimary, hunique, hnote.symm.trans hnote'⟩
  refine (forall₂_of_common (mapM_eq_ok_iff.mp hrows) (mapM_eq_ok_iff.mp hrows')).imp ?_
  rintro f f' ⟨row, hrow, hrow'⟩
  obtain ⟨hn, ht, hs⟩ := row_eq_ok_iff.mp hrow
  obtain ⟨hn', ht', hs'⟩ := row_eq_ok_iff.mp hrow'
  exact ⟨hn.symm.trans hn', ht.symm.trans ht', row.settings, hs, hs'⟩

/-- Data models of words with one text have one document: they have as many models, which are
shown alike in turn, the same enumerations, and relations with the same references and
join tables. -/
theorem render_unambiguous {dm dm' : DataModel} {t : String} (hw : dm.Worded) (hw' : dm'.Worded)
    (h : o.render dm = .ok t) (h' : o.render dm' = .ok t) :
    ∃ d rs rs', o.document dm = .ok d ∧ o.document dm' = .ok d ∧
      dm.relations = .ok rs ∧ dm'.relations = .ok rs' ∧
      List.Forall₂ (o.ShowsAlike dm dm') dm.models dm'.models ∧
      dm.enums = dm'.enums ∧
      rs.filterMap o.reference? = rs'.filterMap o.reference? ∧
      o.joinTables rs = o.joinTables rs' := by
  obtain ⟨d, hd, rfl⟩ := render_eq_ok_iff.mp h
  obtain ⟨d', hd', htext⟩ := render_eq_ok_iff.mp h'
  obtain ⟨rs, hrs, htables, hj, hp, henums, hrefs⟩ := document_eq_ok_iff.mp hd
  obtain ⟨rs', hrs', htables', hj', hp', henums', hrefs'⟩ := document_eq_ok_iff.mp hd'
  obtain rfl : d' = d :=
    Document.eq_of_text (hw'.document hd') (hw.document hd) (hp'.trans hp.symm) htext
  refine ⟨d', rs, rs', hd, hd', hrs, hrs', ?_, henums.symm.trans henums',
    hrefs.symm.trans hrefs', hj.trans hj'.symm⟩
  refine (forall₂_of_common (mapM_eq_ok_iff.mp htables) (mapM_eq_ok_iff.mp htables')).imp ?_
  rintro m m' ⟨b, hb, hb'⟩
  exact showsAlike_of_table hb hb'

/-! ## Two data models that are shown alike -/

namespace Memo

def options : Options := {}

/-- Its texts look like settings. -/
def title : Field where
  name := "title"
  kind := .scalar
  type := "String"
  isRequired := true
  default := some (.string "it's, note: 'x'")
  documentation := some "[pk], not null"

def memo : Model where
  name := "Memo"
  fields := [Blog.id, title]
  documentation := some "one's own"

/-- `memo` with more that is not shown. -/
def otherMemo : Model where
  name := "Memo"
  dbName := some "memos"
  fields := [{ Blog.id with isRequired := true, documentation := some "" }, title]
  documentation := some "one's own"
  primaryKey := some []
  uniqueFields := [["title"]]

def dataModel : DataModel := { models := [memo] }

def other : DataModel := { models := [otherMemo] }

def document : Document where
  project := none
  tables :=
    [{ name := "Memo"
       rows := [⟨"id", "Int", [.pk]⟩, ⟨"title", "String",
         [.notNull, .default "'it\\'s, note: \\'x\\''", .note "[pk], not null"]⟩]
       indexes := []
       note := some "one's own" }]
  enums := []
  references := []
  joinTables := []

theorem document_eq : options.document dataModel = .ok document := by
  rw [Options.document, DataModel.relations_eq_insertionSort]
  with_unfolding_all rfl

theorem document_other : options.document other = .ok document := by
  rw [Options.document, DataModel.relations_eq_insertionSort]
  with_unfolding_all rfl

theorem title_worded : title.Worded where
  name := by decide
  type := by decide
  default := by
    rintro d ⟨⟩
    change OneLine "it's, note: 'x'"
    decide
  documentation := by
    rintro text ⟨⟩
    decide
  relation := nofun

theorem id_worded (required : Bool) {documentation : Option String}
    (h : ∀ text ∈ documentation, OneLine text) :
    { Blog.id with isRequired := required, documentation }.Worded where
  name := by change IsWord "id"; decide
  type := by change IsWord "Int"; decide
  default := nofun
  documentation := h
  relation := nofun

theorem memo_worded : memo.Worded where
  name := by decide
  dbName := nofun
  fields := by
    refine List.forall_mem_cons.mpr ⟨?_, List.forall_mem_singleton.mpr title_worded⟩
    have hid : ∀ text ∈ Blog.id.documentation, OneLine text := nofun
    exact id_worded false hid
  documentation := by
    rintro text ⟨⟩
    decide
  primaryKey := nofun
  uniqueFields := nofun

theorem otherMemo_worded : otherMemo.Worded where
  name := by decide
  dbName := by
    rintro name ⟨⟩
    decide
  fields := by
    refine List.forall_mem_cons.mpr ⟨?_, List.forall_mem_singleton.mpr title_worded⟩
    have hid : ∀ text ∈ some "", OneLine text := by
      rintro text ⟨⟩
      decide
    exact id_worded true hid
  documentation := by
    rintro text ⟨⟩
    decide
  primaryKey := by
    rintro key ⟨⟩
    nofun
  uniqueFields := by simp only [otherMemo, List.forall_mem_singleton]; decide

theorem unambiguous_render :
    options.render dataModel = .ok document.text ∧ options.render other = .ok document.text ∧
      List.Forall₂ (options.ShowsAlike dataModel other) dataModel.models other.models := by
  have hrender : options.render dataModel = .ok document.text :=
    render_eq_ok_iff.mpr ⟨document, document_eq, rfl⟩
  have hother : options.render other = .ok document.text :=
    render_eq_ok_iff.mpr ⟨document, document_other, rfl⟩
  have hworded : dataModel.Worded := ⟨List.forall_mem_singleton.mpr memo_worded, nofun⟩
  have hworded' : other.Worded := ⟨List.forall_mem_singleton.mpr otherMemo_worded, nofun⟩
  obtain ⟨_, _, _, -, -, -, -, halike, -⟩ := render_unambiguous hworded hworded' hrender hother
  exact ⟨hrender, hother, halike⟩

end Memo

end Dbml
