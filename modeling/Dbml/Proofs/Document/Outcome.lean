import Dbml.Document
import Dbml.Proofs.Traversal

/-!
# When there is a document, and why not

A document is refused for one of three reasons: its relations are, or a field that
has a row has a default of an unknown kind, or a relation between lists points at a
model without an identifying field and is to have a join table. There is a document
iff none of these is the case, and of several reasons the first in this order, and in
the order of declarations, is the one reported (`render_outcome`).
-/

namespace Dbml

variable {o : Options} {dm : DataModel} {e : RenderError}

/-- Whether the default of a field is of an unknown kind. -/
def Field.HasUnsupportedDefault (f : Field) : Prop := f.default = some .unsupported

/-- Whether one of the fields identifies the rows. -/
def Model.HasId (m : Model) : Prop := ∃ f ∈ m.fields, f.isId = true

/-- The fields that have rows, with their models, in order. -/
def Options.shownColumns (o : Options) (dm : DataModel) : List (Model × Field) :=
  dm.models.flatMap fun m => (o.shownFields m).map (m, ·)

/-- The ends of the relations between lists, in order. -/
def listEnds (relations : List Relation) : List Endpoint :=
  (relations.filterMap Relation.manyToMany?).flatMap fun r => [r.first, r.second]

/-! ## Tables -/

theorem ColumnDefault.render_eq_error_iff {m : Model} {f : Field} {d : ColumnDefault} :
    d.render m f = .error e ↔ d = .unsupported ∧ e = .unsupportedDefault m.name f.name := by
  cases d <;> simp [render, text?, eq_comm]

theorem pure_ne_error {α : Type} (a : α) : (pure a : Except RenderError α) ≠ .error e := nofun

theorem defaultSettings_eq_error_iff {m : Model} {f : Field} :
    defaultSettings m f = .error e ↔
      f.HasUnsupportedDefault ∧ e = .unsupportedDefault m.name f.name := by
  unfold defaultSettings Field.HasUnsupportedDefault
  rcases f.default with _ | d
  · simp
  · by_cases h : d.isAutoincrement
    · have hd : d ≠ .unsupported := by
        rintro rfl
        exact Bool.false_ne_true h
      simp [h, hd]
    · simp only [h, Bool.false_eq_true, if_false, bind_eq_error_iff,
        ColumnDefault.render_eq_error_iff, pure_ne_error, and_false, exists_false, or_false,
        Option.some.injEq]

theorem row_fails (m : Model) (f : Field) :
    FailsAtFirst (o.row dm m f) (·.2.HasUnsupportedDefault) [(m, f)]
      fun c : Model × Field => .unsupportedDefault c.1.name c.2.name := by
  refine .singleton fun e => ?_
  simp only [Options.row, columnSettings, bind_eq_error_iff, defaultSettings_eq_error_iff,
    pure_ne_error, and_false, exists_false, or_false]

theorem table_fails (m : Model) :
    FailsAtFirst (o.table dm m) (·.2.HasUnsupportedDefault) ((o.shownFields m).map (m, ·))
      fun c : Model × Field => .unsupportedDefault c.1.name c.2.name := by
  rw [List.map_eq_flatMap]
  exact (FailsAtFirst.mapM (row_fails m) (o.shownFields m)).bind_pure _

theorem tables_fail :
    FailsAtFirst (dm.models.mapM (o.table dm)) (·.2.HasUnsupportedDefault) (o.shownColumns dm)
      fun c => .unsupportedDefault c.1.name c.2.name :=
  .mapM table_fails dm.models

theorem exists_tables_iff :
    (∃ ts, dm.models.mapM (o.table dm) = .ok ts) ↔
      ∀ m ∈ dm.models, ∀ f ∈ o.shownFields m, ¬ f.HasUnsupportedDefault := by
  rw [tables_fail.exists_ok_iff]
  simp only [Options.shownColumns, List.forall_mem_flatMap, List.forall_mem_map]

/-! ## Join tables -/

theorem joinColumn_fails (explicit : Bool) (x : Endpoint) :
    FailsAtFirst (o.joinColumn explicit x) (¬ ·.target.HasId) [x]
      fun x => .missingIdField x.target.name := by
  refine .singleton fun e => ?_
  have hid : x.target.idField? = none ↔ ¬ x.target.HasId := by
    simp [Model.idField?, Model.HasId]
  rw [← hid]
  rcases h : x.target.idField? with _ | id <;> simp [Options.joinColumn, h, eq_comm]

theorem joinTable_fails (r : ManyToMany) :
    FailsAtFirst (o.joinTable r) (¬ ·.target.HasId) [r.first, r.second]
      fun x => .missingIdField x.target.name :=
  (joinColumn_fails _ r.first).bind fun _ => (joinColumn_fails _ r.second).bind_pure _

theorem joinTables_fail (relations : List Relation) :
    FailsAtFirst (o.joinTables relations) (¬ ·.target.HasId)
      (if o.manyToMany then listEnds relations else []) fun x => .missingIdField x.target.name := by
  unfold Options.joinTables
  split
  · exact .mapM joinTable_fails _
  · exact .pure _

theorem Relation.manyToMany?_eq_some_iff {r : Relation} {m : ManyToMany} :
    r.manyToMany? = some m ↔ r = .manyToMany m := by
  cases r <;> simp [manyToMany?]

theorem forall_mem_listEnds {rs : List Relation} {p : Endpoint → Prop} :
    (∀ x ∈ listEnds rs, p x) ↔ ∀ r, .manyToMany r ∈ rs → p r.first ∧ p r.second := by
  simp only [listEnds, List.mem_flatMap, List.mem_filterMap, Relation.manyToMany?_eq_some_iff,
    List.mem_pair]
  constructor
  · intro h r hr
    exact ⟨h _ ⟨r, ⟨_, hr, rfl⟩, .inl rfl⟩, h _ ⟨r, ⟨_, hr, rfl⟩, .inr rfl⟩⟩
  · rintro h x ⟨r, ⟨_, hr, rfl⟩, rfl | rfl⟩
    · exact (h r hr).1
    · exact (h r hr).2

theorem exists_joinTables_iff {rs : List Relation} :
    (∃ js, o.joinTables rs = .ok js) ↔ (o.manyToMany = true →
      ∀ r, .manyToMany r ∈ rs → r.first.target.HasId ∧ r.second.target.HasId) := by
  rw [(joinTables_fail rs).exists_ok_iff]
  by_cases h : o.manyToMany = true
  · simp only [h, if_true, Classical.not_not, forall_mem_listEnds, forall_const]
  · simp [h]

theorem joinTables_eq_error_iff {rs : List Relation} :
    o.joinTables rs = .error e ↔ o.manyToMany = true ∧
      ∃ x, IsFirst (¬ ·.target.HasId) (listEnds rs) x ∧ e = .missingIdField x.target.name := by
  rw [joinTables_fail rs e]
  by_cases h : o.manyToMany = true
  · simp [h]
  · simp [h, IsFirst.not_nil]

theorem joinColumn_eq_ok_iff {explicit : Bool} {x : Endpoint} {c : JoinColumn} :
    o.joinColumn explicit x = .ok c ↔ ∃ id, x.target.idField? = some id ∧
      c = { name := joinColumnName x.field.name explicit, type := id.type,
            table := o.tableName x.target, column := id.name } := by
  rcases h : x.target.idField? with _ | id <;> simp [Options.joinColumn, h, eq_comm]

theorem joinTable_eq_ok_iff {r : ManyToMany} {j : JoinTable} :
    o.joinTable r = .ok j ↔ j.name = r.name ∧ o.joinColumn r.explicit r.first = .ok j.first ∧
      o.joinColumn r.explicit r.second = .ok j.second := by
  simp only [Options.joinTable, bind_eq_ok_iff]
  constructor
  · rintro ⟨first, hf, second, hs, h⟩
    obtain rfl := Except.ok.inj h
    exact ⟨rfl, hf, hs⟩
  · rintro ⟨hn, hf, hs⟩
    refine ⟨_, hf, _, hs, ?_⟩
    rw [← hn]
    rfl

/-! ## Documents -/

/-- What a document is made of. -/
theorem document_eq_ok_iff {d : Document} :
    o.document dm = .ok d ↔ ∃ rs, dm.relations = .ok rs ∧
      dm.models.mapM (o.table dm) = .ok d.tables ∧ o.joinTables rs = .ok d.joinTables ∧
      d.project = o.project ∧ d.enums = dm.enums ∧ d.references = rs.filterMap o.reference? := by
  simp only [Options.document, bind_eq_ok_iff]
  refine exists_congr fun rs => and_congr_right fun _ => ?_
  constructor
  · rintro ⟨ts, ht, js, hj, h⟩
    obtain rfl := Except.ok.inj h
    exact ⟨ht, hj, rfl, rfl, rfl⟩
  · rintro ⟨ht, hj, hp, he, hr⟩
    refine ⟨_, ht, _, hj, ?_⟩
    rw [← hp, ← he, ← hr]
    rfl

/-- What the relations of a data model become in its document. -/
theorem document_of_relations {d : Document} {rs : List Relation} (hd : o.document dm = .ok d)
    (h : dm.relations = .ok rs) :
    o.joinTables rs = .ok d.joinTables ∧ d.references = rs.filterMap o.reference? := by
  obtain ⟨rs', hrs', -, hjoins, -, -, hrefs⟩ := document_eq_ok_iff.mp hd
  obtain rfl : rs = rs' := Except.ok.inj (h.symm.trans hrs')
  exact ⟨hjoins, hrefs⟩

theorem exists_document_iff :
    (∃ d, o.document dm = .ok d) ↔ ∃ rs, dm.relations = .ok rs ∧
      (∀ m ∈ dm.models, ∀ f ∈ o.shownFields m, ¬ f.HasUnsupportedDefault) ∧
      (o.manyToMany = true → ∀ r, .manyToMany r ∈ rs →
        r.first.target.HasId ∧ r.second.target.HasId) := by
  simp only [← exists_tables_iff, ← exists_joinTables_iff, Options.document, bind_eq_ok_iff]
  constructor
  · rintro ⟨d, rs, hr, ts, ht, js, hj, -⟩
    exact ⟨rs, hr, ⟨ts, ht⟩, js, hj⟩
  · rintro ⟨rs, hr, ⟨ts, ht⟩, js, hj⟩
    exact ⟨_, rs, hr, ts, ht, js, hj, rfl⟩

theorem render_eq_ok_iff {t : String} :
    o.render dm = .ok t ↔ ∃ d, o.document dm = .ok d ∧ d.text = t := by
  unfold Options.render
  cases o.document dm <;> simp

theorem render_eq_error_iff : o.render dm = .error e ↔ o.document dm = .error e := by
  unfold Options.render
  cases o.document dm <;> simp

/-! ## Lines of a text -/

/-- Whether there is a line in the block of a document that a header opens. -/
def Document.HasLine (d : Document) (header line : String) : Prop :=
  ∃ lines, "\n".intercalate (header :: lines) ∈ d.blocks ∧ line ∈ lines

/-- The line for an end of a relation between lists, given the identifying field of the model
that the end points at. -/
def Options.joinLine (o : Options) (explicit : Bool) (e : Endpoint) (id : Field) : String :=
  "  " ++ joinColumnName e.field.name explicit ++ " " ++ id.type ++ " [ref: > " ++
    o.tableName e.target ++ "." ++ id.name ++ "]"

namespace Document

variable {d : Document}

theorem table_mem_blocks {b : Table} (h : b ∈ d.tables) : b.text ∈ d.blocks := by
  have hmem : b.text ∈ d.tables.map (·.text) := List.mem_map_of_mem h
  simp [blocks, hmem]

theorem reference_mem_blocks {r : Reference} (h : r ∈ d.references) : r.text ∈ d.blocks := by
  have hmem : r.text ∈ d.references.map (·.text) := List.mem_map_of_mem h
  simp [blocks, hmem]

theorem joinTable_mem_blocks {j : JoinTable} (h : j ∈ d.joinTables) : j.text ∈ d.blocks := by
  have hmem : j.text ∈ d.joinTables.map (·.text) := List.mem_map_of_mem h
  simp [blocks, hmem]

theorem hasLine_row {b : Table} {r : Row} (hb : b ∈ d.tables) (hr : r ∈ b.rows) :
    d.HasLine (tableHeader b.name)
      ("  " ++ r.name ++ " " ++ r.type ++ attributesText r.settings) := by
  refine ⟨_, table_mem_blocks hb, ?_⟩
  simp only [List.mem_append, List.append_assoc]
  exact .inl (List.mem_map_of_mem (f := Row.text) hr)

theorem hasLine_joinColumn {j : JoinTable} {c : JoinColumn} (hj : j ∈ d.joinTables)
    (hc : c = j.first ∨ c = j.second) :
    d.HasLine (tableHeader j.name)
      ("  " ++ c.name ++ " " ++ c.type ++ " [ref: > " ++ c.table ++ "." ++ c.column ++ "]") := by
  refine ⟨[j.first.text, j.second.text, "\x7d"], joinTable_mem_blocks hj, ?_⟩
  rcases hc with rfl | rfl
  · exact List.mem_cons_self
  · exact List.mem_cons_of_mem _ List.mem_cons_self

end Document

/-- A join table has a line for each of the two ends, in their order, between those that open and
close it. -/
theorem joinTable_text {r : ManyToMany} {j : JoinTable} (h : o.joinTable r = .ok j) :
    ∃ id id', r.first.target.idField? = some id ∧ r.second.target.idField? = some id' ∧
      j.text = "\n".intercalate [tableHeader r.name, o.joinLine r.explicit r.first id,
        o.joinLine r.explicit r.second id', "\x7d"] := by
  obtain ⟨hname, hfirst, hsecond⟩ := joinTable_eq_ok_iff.mp h
  obtain ⟨id, hid, hfirst⟩ := joinColumn_eq_ok_iff.mp hfirst
  obtain ⟨id', hid', hsecond⟩ := joinColumn_eq_ok_iff.mp hsecond
  refine ⟨id, id', hid, hid', ?_⟩
  rw [JoinTable.text, JoinTable.lines, hname, hfirst, hsecond]
  rfl

/-! ## Outcomes -/

/-- There is a document iff there are relations, no field with a row has a default of
an unknown kind and, if there are to be join tables, every relation between lists
points at models with an identifying field at both ends. Otherwise the fault is that of the
relations, or else the first such default by models and then by fields, or else the
first end of a relation between lists that points at a model without such a field. -/
theorem render_outcome (o : Options) (dm : DataModel) :
    ((∃ t, o.render dm = .ok t) ↔
      ∃ rs, dm.relations = .ok rs ∧
        (∀ m ∈ dm.models, ∀ f ∈ o.shownFields m, ¬ f.HasUnsupportedDefault) ∧
        (o.manyToMany = true → ∀ r, .manyToMany r ∈ rs →
          r.first.target.HasId ∧ r.second.target.HasId)) ∧
    ∀ e, o.render dm = .error e ↔
      dm.relations = .error e ∨
      ∃ rs, dm.relations = .ok rs ∧
        ((∃ m f, IsFirst (·.2.HasUnsupportedDefault) (o.shownColumns dm) (m, f) ∧
            e = .unsupportedDefault m.name f.name) ∨
          (∀ m ∈ dm.models, ∀ f ∈ o.shownFields m, ¬ f.HasUnsupportedDefault) ∧
            o.manyToMany = true ∧
            ∃ x, IsFirst (¬ ·.target.HasId) (listEnds rs) x ∧
              e = .missingIdField x.target.name) := by
  constructor
  · rw [← exists_document_iff]
    simp only [render_eq_ok_iff]
    exact ⟨fun ⟨_, d, hd, _⟩ => ⟨d, hd⟩, fun ⟨d, hd⟩ => ⟨_, d, hd, rfl⟩⟩
  · intro e
    have hdoc : o.document dm = .error e ↔ dm.relations = .error e ∨
        ∃ rs, dm.relations = .ok rs ∧ (dm.models.mapM (o.table dm) = .error e ∨
          (∃ ts, dm.models.mapM (o.table dm) = .ok ts) ∧ o.joinTables rs = .error e) := by
      simp only [Options.document, bind_eq_error_iff, pure_ne_error, and_false, exists_false,
        or_false, exists_and_right]
    rw [render_eq_error_iff, hdoc]
    simp only [tables_fail e, exists_tables_iff, joinTables_eq_error_iff, Prod.exists]

end Dbml
