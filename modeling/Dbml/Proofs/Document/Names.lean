import Dbml.Proofs.Document.Outcome
import Dbml.Proofs.Relation.Facing

/-!
# Names that a document uses

Rows of relations, references and columns of join tables each name tables that are
elsewhere in the document. They come to these names by different ways, by that of
the type of a field or through the ends of a relation, and all of them lead to the
header of the table of one of the models; the columns they name have rows there
(`document_names`).
-/

namespace Dbml

/-- The block of a document that is the table of a model. -/
structure Document.TableOf (d : Document) (o : Options) (dm : DataModel) (m : Model) (b : Table) :
    Prop where
  model : m ∈ dm.models
  table : o.table dm m = .ok b
  mem : b ∈ d.tables

/-- Whether a row is called `name`. -/
def Table.HasRow (b : Table) (name : String) : Prop := ∃ row ∈ b.rows, row.name = name

/-- Whether a field that is no side of a relation is called `name`. -/
def Model.HasColumn (m : Model) (name : String) : Prop :=
  ∃ f ∈ m.fields, f.name = name ∧ f.kind ≠ .object

variable {o : Options} {dm : DataModel} {d : Document} {m : Model} {f : Field}

/-! ## Tables and their rows -/

theorem row_eq_ok_iff {r : Row} :
    o.row dm m f = .ok r ↔
      r.name = f.name ∧ r.type = o.rowType dm f ∧ columnSettings m f = .ok r.settings := by
  simp only [Options.row, bind_eq_ok_iff]
  constructor
  · rintro ⟨settings, hs, h⟩
    obtain rfl := Except.ok.inj h
    exact ⟨rfl, rfl, hs⟩
  · rintro ⟨hn, ht, hs⟩
    refine ⟨_, hs, ?_⟩
    rw [← hn, ← ht]
    rfl

theorem table_eq_ok_iff {b : Table} :
    o.table dm m = .ok b ↔ b.name = o.tableName m ∧
      (o.shownFields m).mapM (o.row dm m) = .ok b.rows ∧ b.indexes = m.indexes ∧
      b.note = noteOf m.documentation := by
  simp only [Options.table, bind_eq_ok_iff]
  constructor
  · rintro ⟨rows, hr, h⟩
    obtain rfl := Except.ok.inj h
    exact ⟨rfl, hr, rfl, rfl⟩
  · rintro ⟨hn, hr, hi, ht⟩
    refine ⟨_, hr, ?_⟩
    rw [← hn, ← hi, ← ht]
    rfl

theorem mem_shownFields :
    f ∈ o.shownFields m ↔
      f ∈ m.fields ∧ (o.includeRelationFields = true ∨ f.isRelation = false) := by
  simp [Options.shownFields]

namespace Document.TableOf

variable {b : Table}

theorem name_eq (h : d.TableOf o dm m b) : b.name = o.tableName m := (table_eq_ok_iff.mp h.table).1

/-- Every field that is shown has a row. -/
theorem exists_row (h : d.TableOf o dm m b) (hf : f ∈ o.shownFields m) :
    ∃ row ∈ b.rows, o.row dm m f = .ok row :=
  exists_mem_of_forall₂ (mapM_eq_ok_iff.mp (table_eq_ok_iff.mp h.table).2.1) hf

theorem hasRow (h : d.TableOf o dm m b) (hf : f ∈ o.shownFields m) : b.HasRow f.name := by
  obtain ⟨row, hrow, hr⟩ := h.exists_row hf
  exact ⟨row, hrow, (row_eq_ok_iff.mp hr).1⟩

theorem hasRow_of_hasColumn (h : d.TableOf o dm m b) {c : String} (hc : m.HasColumn c) :
    b.HasRow c := by
  obtain ⟨f, hf, rfl, hk⟩ := hc
  exact h.hasRow (mem_shownFields.mpr ⟨hf, .inr (decide_eq_false hk)⟩)

end Document.TableOf

theorem exists_tableOf (h : o.document dm = .ok d) (hm : m ∈ dm.models) :
    ∃ b, d.TableOf o dm m b := by
  obtain ⟨-, -, ht, -⟩ := document_eq_ok_iff.mp h
  obtain ⟨b, hb, hmb⟩ := exists_mem_of_forall₂ (mapM_eq_ok_iff.mp ht) hm
  exact ⟨b, hm, hmb, hb⟩

theorem exists_tableOf_of_mem (h : o.document dm = .ok d) {b : Table} (hb : b ∈ d.tables) :
    ∃ m, d.TableOf o dm m b := by
  obtain ⟨-, -, ht, -⟩ := document_eq_ok_iff.mp h
  obtain ⟨m, hm, hmb⟩ := exists_of_mem_forall₂ (mapM_eq_ok_iff.mp ht) hb
  exact ⟨m, hm, hmb, hb⟩

/-- Where there are relations, every side of one points at a model. -/
theorem exists_target {rs : List Relation} (h : dm.relations = .ok rs) (hm : m ∈ dm.models)
    (hf : f ∈ m.fields) (hk : f.isRelation = true) : ∃ target, dm.model? f.type = some target := by
  obtain ⟨ends, -, he, -⟩ := DataModel.relations_eq_ok_iff.mp h
  exact DataModel.exists_model?_of_endpoints he hm hf hk

/-- The type of a row of a relation is the name of the table of the model that it points at. -/
theorem rowType_eq_tableName {target : Model} (hf : f.isRelation = true)
    (ht : dm.model? f.type = some target) : o.rowType dm f = o.tableName target := by
  rw [Options.rowType, if_pos hf, Options.tableNameOf, ht]

/-! ## References and join tables -/

/-- What a relation with a foreign key is referenced by. -/
theorem reference?_keyed (a b : Endpoint) :
    o.reference? (.keyed a b) = some
      { fromTable := o.tableName a.owner, fromColumns := a.field.fromFields,
        toOne := !b.field.isList, toTable := o.tableName a.target,
        toColumns := a.field.toFields, onDelete := a.field.onDelete } := by
  unfold Relation.keyed
  split
  · rename_i h
    rw [h]
    rfl
  · rename_i h
    rw [eq_false_of_ne_true h]
    rfl

/-- A relation that has a reference is that of the foreign key of its anchor. -/
theorem keyedPair_of_reference? {rs : List Relation} (h : dm.relations = .ok rs) {r : Relation}
    (hr : r ∈ rs) {ref : Reference} (href : o.reference? r = some ref) :
    KeyedPair r.anchor.owner.isUniqueKey r.anchor.field r.counterpart.field ∧
      r = .keyed r.anchor r.counterpart := by
  rcases DataModel.shape_of_mem h hr with hkeyed | ⟨-, m, rfl⟩
  · exact hkeyed
  · cases href

theorem exists_of_mem_joinTables {rs : List Relation} {js : List JoinTable}
    (h : o.joinTables rs = .ok js) {j : JoinTable} (hj : j ∈ js) :
    ∃ r, .manyToMany r ∈ rs ∧ o.joinTable r = .ok j := by
  unfold Options.joinTables at h
  split at h
  · obtain ⟨r, hr, hjr⟩ := exists_of_mem_forall₂ (mapM_eq_ok_iff.mp h) hj
    obtain ⟨r', hr', hm⟩ := List.mem_filterMap.mp hr
    exact ⟨r, Relation.manyToMany?_eq_some_iff.mp hm ▸ hr', hjr⟩
  · obtain rfl := Except.ok.inj h
    cases hj

/-- The column of a join table references the identifying column of a table. -/
theorem joinColumn_references (h : o.document dm = .ok d) {explicit : Bool} {x : Endpoint}
    (hx : dm.HasEnd x) {j : JoinTable} (hj : j ∈ d.joinTables) {c : JoinColumn}
    (hjc : c = j.first ∨ c = j.second) (hc : o.joinColumn explicit x = .ok c) :
    ∃ m b id, d.TableOf o dm m b ∧ c.table = b.name ∧ m.idField? = some id ∧ c.column = id.name ∧
      d.HasLine (tableHeader j.name)
        ("  " ++ c.name ++ " " ++ c.type ++ " [ref: > " ++ b.name ++ "." ++ id.name ++ "]") ∧
      (id.isRelation = false ∨ o.includeRelationFields = true → b.HasRow c.column) := by
  have hline := Document.hasLine_joinColumn hj hjc
  obtain ⟨id, hid, rfl⟩ := joinColumn_eq_ok_iff.mp hc
  obtain ⟨b, hb⟩ := exists_tableOf h (DataModel.mem_of_model? hx.target).1
  refine ⟨x.target, b, id, hb, hb.name_eq.symm, hid, rfl, hb.name_eq ▸ hline, fun hshown => ?_⟩
  exact hb.hasRow (mem_shownFields.mpr ⟨List.mem_of_find?_eq_some hid, hshown.symm⟩)

/-- Where there is a document, its text is that of its blocks: its tables are those of the models,
and the type in a row of a relation is the name of one of them. Every reference is that of a
foreign key, between the tables of the owner of the key and of the model that the key points
at; the columns it names have rows in these tables if the key names columns of these models.
Every column of a join table references a table of a model, and there its identifying column,
which has a row unless it is a relation and these are not shown. The rows, references and
columns are lines of these blocks, and the names stand in the lines. -/
theorem document_names {t : String} (h : o.render dm = .ok t) :
    ∃ d rs, o.document dm = .ok d ∧ d.text = t ∧ t = "\n\n".intercalate d.blocks ∧
      dm.relations = .ok rs ∧
      (∀ b ∈ d.tables, "\n".intercalate b.lines ∈ d.blocks ∧ ∃ m, d.TableOf o dm m b) ∧
      (∀ m b, d.TableOf o dm m b → ∀ f ∈ o.shownFields m, f.isRelation = true →
        ∃ row ∈ b.rows, o.row dm m f = .ok row ∧
          ∃ m' b', d.TableOf o dm m' b' ∧ row.type = b'.name ∧
            d.HasLine (tableHeader b.name)
              ("  " ++ f.name ++ " " ++ b'.name ++ attributesText row.settings)) ∧
      (∀ ref ∈ d.references, ∃ r ∈ rs, o.reference? r = some ref ∧
        ∃ source target, d.TableOf o dm r.anchor.owner source ∧
          d.TableOf o dm r.anchor.target target ∧
          ref.fromTable = source.name ∧ ref.toTable = target.name ∧
          "Ref: " ++ source.name ++ "." ++ combineKeys ref.fromColumns ++ ref.sign ++
            target.name ++ "." ++ combineKeys ref.toColumns ++
            Reference.actionText ref.onDelete ∈ d.blocks ∧
          ((∀ c ∈ r.anchor.field.fromFields, r.anchor.owner.HasColumn c) →
            ∀ c ∈ ref.fromColumns, source.HasRow c) ∧
          ((∀ c ∈ r.anchor.field.toFields, r.anchor.target.HasColumn c) →
            ∀ c ∈ ref.toColumns, target.HasRow c)) ∧
      ∀ j ∈ d.joinTables, ∀ c, c = j.first ∨ c = j.second →
        ∃ m b id, d.TableOf o dm m b ∧ c.table = b.name ∧ m.idField? = some id ∧
          c.column = id.name ∧
          d.HasLine (tableHeader j.name)
            ("  " ++ c.name ++ " " ++ c.type ++ " [ref: > " ++ b.name ++ "." ++ id.name ++ "]") ∧
          (id.isRelation = false ∨ o.includeRelationFields = true → b.HasRow c.column) := by
  obtain ⟨d, hd, ht⟩ := render_eq_ok_iff.mp h
  obtain ⟨rs, hrs, -, hj, -, -, hrefs⟩ := document_eq_ok_iff.mp hd
  have hends (r : Relation) (hr : r ∈ rs) := DataModel.ends_of_mem_relations hrs hr
  refine ⟨d, rs, hd, ht, ht.symm, hrs,
    fun b hb => ⟨Document.table_mem_blocks hb, exists_tableOf_of_mem hd hb⟩, ?rows, ?references,
    ?joins⟩
  case rows =>
    intro m b hb f hf hk
    obtain ⟨row, hrow, hr⟩ := hb.exists_row hf
    obtain ⟨m', hm'⟩ := exists_target hrs hb.model (mem_shownFields.mp hf).1 hk
    obtain ⟨b', hb'⟩ := exists_tableOf hd (DataModel.mem_of_model? hm').1
    obtain ⟨hname, htype, -⟩ := row_eq_ok_iff.mp hr
    have htype : row.type = b'.name := by rw [htype, rowType_eq_tableName hk hm', hb'.name_eq]
    refine ⟨row, hrow, hr, m', b', hb', htype, ?_⟩
    rw [← hname, ← htype]
    exact Document.hasLine_row hb.mem hrow
  case references =>
    intro ref href
    have hmem := href
    rw [hrefs] at href
    obtain ⟨r, hr, href⟩ := List.mem_filterMap.mp href
    have ha := (hends r hr).1
    obtain ⟨source, hs⟩ := exists_tableOf hd (List.mem_of_getElem? ha.relationField.owner)
    obtain ⟨target, ht⟩ := exists_tableOf hd (DataModel.mem_of_model? ha.target).1
    have hk := href
    rw [(keyedPair_of_reference? hrs hr href).2, reference?_keyed] at hk
    obtain rfl := Option.some.inj hk
    have htext := Document.reference_mem_blocks hmem
    rw [Reference.text, ← hs.name_eq, ← ht.name_eq] at htext
    exact ⟨r, hr, href, source, target, hs, ht, hs.name_eq.symm, ht.name_eq.symm, htext,
      fun hc c hm => hs.hasRow_of_hasColumn (hc c hm),
      fun hc c hm => ht.hasRow_of_hasColumn (hc c hm)⟩
  case joins =>
    intro j hjm c hc
    obtain ⟨r, hr, hjr⟩ := exists_of_mem_joinTables hj hjm
    obtain ⟨-, hfirst, hsecond⟩ := joinTable_eq_ok_iff.mp hjr
    obtain ⟨ha, hcp, -⟩ := hends _ hr
    rcases hc with rfl | rfl
    · exact joinColumn_references hd ha hjm (.inl rfl) hfirst
    · exact joinColumn_references hd hcp hjm (.inr rfl) hsecond

/-! ## A data model with names for tables -/

namespace Blog

/-- `dataModel` with names for the tables of users and tags. -/
def named : DataModel :=
  { models := [{ user with dbName := some "users" }, post, { tag with dbName := some "tags" }] }

def tableNames : Options := { mapToDbSchema := true }

def document : Document where
  project := none
  tables :=
    [{ name := "users"
       rows := [⟨"id", "Int", [.pk]⟩, ⟨"posts", "Post", []⟩]
       indexes := []
       note := none },
     { name := "Post"
       rows := [⟨"id", "Int", [.pk]⟩, ⟨"authorId", "Int", []⟩, ⟨"author", "users", []⟩,
         ⟨"tags", "tags", []⟩]
       indexes := []
       note := none },
     { name := "tags"
       rows := [⟨"id", "Int", [.pk]⟩, ⟨"posts", "Post", []⟩]
       indexes := []
       note := none }]
  enums := []
  references := [⟨"Post", ["authorId"], false, "users", ["id"], some .cascade⟩]
  joinTables := [⟨"PostToTag", ⟨"tagsId", "Int", "tags", "id"⟩, ⟨"postsId", "Int", "Post", "id"⟩⟩]

theorem document_eq : tableNames.document named = .ok document := by
  rw [Options.document, DataModel.relations_eq_insertionSort]
  with_unfolding_all rfl

theorem names_document :
    tableNames.render named = .ok document.text ∧
    (∀ ref ∈ document.references, ∃ source ∈ document.tables, ∃ target ∈ document.tables,
      ref.fromTable = source.name ∧ ref.toTable = target.name) ∧
    (∀ j ∈ document.joinTables, ∃ b ∈ document.tables,
      j.first.table = b.name ∧ b.HasRow j.first.column) ∧
    ∃ name settings, name ∈ document.tables.map (·.name) ∧
      document.HasLine (tableHeader "Post") ("  author " ++ name ++ attributesText settings) := by
  have hrender : tableNames.render named = .ok document.text :=
    render_eq_ok_iff.mpr ⟨document, document_eq, rfl⟩
  obtain ⟨d, rs, hd, -, -, -, -, hrows, hrefs, hjoins⟩ := document_names hrender
  obtain rfl : document = d := Except.ok.inj (document_eq.symm.trans hd)
  refine ⟨hrender, fun ref href => ?_, fun j hj => ?_, ?_⟩
  · obtain ⟨r, -, -, source, target, hs, ht, hfrom, hto, -⟩ := hrefs ref href
    exact ⟨source, hs.mem, target, ht.mem, hfrom, hto⟩
  · obtain ⟨m, b, id, hb, hname, -, -, -, hrow⟩ := hjoins j hj j.first (.inl rfl)
    exact ⟨b, hb.mem, hname, hrow (.inr rfl)⟩
  · obtain ⟨b, hb⟩ := exists_tableOf hd (show post ∈ named.models by simp [named])
    have hauthor : author ∈ tableNames.shownFields post :=
      mem_shownFields.mpr ⟨by simp [post], .inl rfl⟩
    obtain ⟨row, -, -, m', b', hb', -, hline⟩ := hrows post b hb author hauthor rfl
    refine ⟨b'.name, row.settings, List.mem_map_of_mem hb'.mem, ?_⟩
    rw [hb.name_eq] at hline
    exact hline

end Blog

end Dbml
