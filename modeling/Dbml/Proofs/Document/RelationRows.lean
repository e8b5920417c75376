import Dbml.Proofs.Document.Names

/-!
# Documents with and without rows for the sides of relations

Whether tables have rows for the sides of relations changes these rows and nothing else. A table
without them is the table that its model has without its sides (`table_withoutRelations`), and
it is the table with them, less these rows (`rows_withoutRelations`). A document without them may
be there where the one with them is not: a default of an unknown kind is no fault where it has no
row (`document_relationRows`).
-/

namespace Dbml

/-- A model without its sides of relations. -/
def Model.withoutRelations (m : Model) : Model :=
  { m with fields := m.fields.filter (!·.isRelation) }

/-- The table of a model that has a row for each field, without those of sides of relations. -/
def Table.withoutRelations (m : Model) (t : Table) : Table :=
  { t with rows := ((m.fields.zip t.rows).filter (!·.1.isRelation)).map (·.2) }

variable {o : Options} {dm : DataModel}

/-! ## Rows and tables -/

/-- Without rows for them, sides of relations might as well not be there. -/
theorem table_withoutRelations (o : Options) (dm : DataModel) (m : Model) :
    { o with includeRelationFields := false }.table dm m =
      { o with includeRelationFields := true }.table dm m.withoutRelations := by
  have hshown : { o with includeRelationFields := false }.shownFields m =
      { o with includeRelationFields := true }.shownFields m.withoutRelations := by
    simp [Options.shownFields, Model.withoutRelations]
  rw [Options.table, Options.table, hshown]
  rfl

/-- Of two lists in step, what is left of the second where the first is filtered. -/
theorem forall₂_filter_zip {α β : Type} {R : α → β → Prop} (p : α → Bool) {xs : List α}
    {ys : List β} (h : List.Forall₂ R xs ys) :
    List.Forall₂ R (xs.filter p) (((xs.zip ys).filter (p ·.1)).map (·.2)) := by
  induction h with
  | nil => exact .nil
  | @cons x y xs ys hxy _ ih =>
    rw [List.zip_cons_cons, List.filter_cons, List.filter_cons]
    by_cases hp : p x = true
    · rw [if_pos hp, if_pos hp]
      exact .cons hxy ih
    · rw [if_neg hp, if_neg hp]
      exact ih

theorem forall₂_zipWith {α β γ : Type} {R : α → β → Prop} {S : α → γ → Prop} {g : α → β → γ}
    {xs : List α} {ys : List β} (h : List.Forall₂ R xs ys) (hg : ∀ x y, R x y → S x (g x y)) :
    List.Forall₂ S xs (List.zipWith g xs ys) := by
  induction h with
  | nil => exact .nil
  | cons hxy _ ih => exact .cons (hg _ _ hxy) ih

/-- Where a table is made with all rows, so is the one without those of sides of relations. -/
theorem rows_withoutRelations {m : Model} {t : Table}
    (h : { o with includeRelationFields := true }.table dm m = .ok t) :
    { o with includeRelationFields := false }.table dm m = .ok (t.withoutRelations m) := by
  obtain ⟨hname, hrows, hindexes, hnote⟩ := table_eq_ok_iff.mp h
  have hall : { o with includeRelationFields := true }.shownFields m = m.fields :=
    List.filter_eq_self.mpr fun _ _ => rfl
  rw [hall] at hrows
  refine table_eq_ok_iff.mpr ⟨hname, ?_, hindexes, hnote⟩
  exact mapM_eq_ok_iff.mpr
    (forall₂_filter_zip (fun f : Field => !f.isRelation) (mapM_eq_ok_iff.mp hrows))

theorem tables_withoutRelations {ts : List Table}
    (h : dm.models.mapM ({ o with includeRelationFields := true }.table dm) = .ok ts) :
    dm.models.mapM ({ o with includeRelationFields := false }.table dm) =
      .ok (List.zipWith Table.withoutRelations dm.models ts) := by
  exact mapM_eq_ok_iff.mpr
    (forall₂_zipWith (mapM_eq_ok_iff.mp h) fun _ _ ht => rows_withoutRelations ht)

/-! ## Documents -/

/-- Where there is a document with all rows, the one without those of sides of relations is the
same but for its tables. -/
theorem document_withoutRelations {d : Document}
    (h : { o with includeRelationFields := true }.document dm = .ok d) :
    { o with includeRelationFields := false }.document dm =
      .ok { d with tables := List.zipWith Table.withoutRelations dm.models d.tables } := by
  obtain ⟨rs, hrs, htables, hjoins, hproject, henums, hrefs⟩ := document_eq_ok_iff.mp h
  exact document_eq_ok_iff.mpr
    ⟨rs, hrs, tables_withoutRelations htables, hjoins, hproject, henums, hrefs⟩

/-- What only the document with all rows fails at. -/
theorem document_fails_at_relation {d : Document} {e : RenderError}
    (h : { o with includeRelationFields := true }.document dm = .error e)
    (h' : { o with includeRelationFields := false }.document dm = .ok d) :
    ∃ m f, IsFirst (·.2.HasUnsupportedDefault)
        ({ o with includeRelationFields := true }.shownColumns dm) (m, f) ∧
      f.isRelation = true ∧ e = .unsupportedDefault m.name f.name := by
  obtain ⟨rs, hrs, htables, hjoins, -⟩ := document_eq_ok_iff.mp h'
  have hfault : dm.models.mapM ({ o with includeRelationFields := true }.table dm) =
      .error e := by
    rw [Options.document, hrs] at h
    rcases bind_eq_error_iff.mp h with h | ⟨rs', hrs', h⟩
    · cases h
    cases hrs'
    rcases bind_eq_error_iff.mp h with h | ⟨ts, -, h⟩
    · exact h
    · have hjoins : { o with includeRelationFields := true }.joinTables rs = .ok d.joinTables :=
        hjoins
      rw [hjoins] at h
      cases h
  obtain ⟨⟨m, f⟩, hfirst, rfl⟩ := (tables_fail e).mp hfault
  obtain ⟨hmem, hdefault⟩ := hfirst.mem
  obtain ⟨m', hm, hcolumn⟩ := List.mem_flatMap.mp hmem
  obtain ⟨f', hfield, heq⟩ := List.mem_map.mp hcolumn
  obtain ⟨rfl, rfl⟩ := Prod.mk.inj heq
  refine ⟨m', f', hfirst, ?_, rfl⟩
  by_contra hk
  have hshown : f' ∈ { o with includeRelationFields := false }.shownFields m' :=
    mem_shownFields.mpr ⟨(mem_shownFields.mp hfield).1, .inr (eq_false_of_ne_true hk)⟩
  exact exists_tables_iff.mp ⟨_, htables⟩ m' hm f' hshown hdefault

/-- The text of a document with other tables differs in their blocks only. -/
theorem text_of_tables (d : Document) (tables : List Table) : ∃ before rest : List String,
    d.text = "\n\n".intercalate (before ++ d.tables.map (·.text) ++ rest) ∧
      { d with tables }.text = "\n\n".intercalate (before ++ tables.map (·.text) ++ rest) := by
  refine ⟨banner :: (d.project.map (·.text)).toList, d.enums.map (·.text) ++
    d.references.map (·.text) ++ d.joinTables.map (·.text), ?_, ?_⟩ <;>
    simp only [Document.text, Document.blocks, List.cons_append, List.append_assoc]

/-- A table without rows for the sides of relations has the lines of the table with them but for
those of these rows, each of which gives a field its name and type. -/
theorem lines_withoutRelations {m : Model} {t : Table}
    (h : { o with includeRelationFields := true }.table dm m = .ok t) :
    List.Forall₂ (fun f r => ∃ settings, columnSettings m f = .ok settings ∧ r.text =
        "  " ++ f.name ++ " " ++ o.rowType dm f ++ attributesText settings) m.fields t.rows ∧
      ∃ rest, t.lines = tableHeader (o.tableName m) :: (t.rows.map (·.text) ++ rest) ∧
        (t.withoutRelations m).lines = tableHeader (o.tableName m) ::
          (((m.fields.zip t.rows).filter (!·.1.isRelation)).map (·.2.text) ++ rest) := by
  obtain ⟨hname, hrows, -⟩ := table_eq_ok_iff.mp h
  have hall : { o with includeRelationFields := true }.shownFields m = m.fields :=
    List.filter_eq_self.mpr fun _ _ => rfl
  rw [hall] at hrows
  refine ⟨(mapM_eq_ok_iff.mp hrows).imp fun f r hr => ?_,
    Table.indexLines t.indexes ++ (Table.noteLines t.note ++ ["\x7d"]), ?_, ?_⟩
  · obtain ⟨hrow, htype, hsettings⟩ := row_eq_ok_iff.mp hr
    refine ⟨r.settings, hsettings, ?_⟩
    rw [Row.text, hrow, htype]
    rfl
  · rw [Table.lines, hname, List.append_assoc, List.append_assoc]
    rfl
  · rw [Table.lines, Table.withoutRelations, hname, List.map_map, List.append_assoc,
      List.append_assoc]
    rfl

/-- Documents with rows for the sides of relations against those without, all other options being
the same. Any table without these rows is the one that its model has with all rows if its
sides of relations are taken away. Where there is a text with all rows, there is one without
these, of the same document but for its tables; these are the tables that the models have
without their sides of relations, and each of them is the table with all rows, less those of the
sides. So the texts differ in the blocks of the tables only, and there in the lines of the sides,
which the one text lacks. Where only the text without these rows is there, the other one fails at
the first default of an unknown kind, which is that of a side of a relation. -/
theorem document_relationRows (o : Options) (dm : DataModel) :
    (∀ m, { o with includeRelationFields := false }.table dm m =
      { o with includeRelationFields := true }.table dm m.withoutRelations) ∧
    (∀ t, { o with includeRelationFields := true }.render dm = .ok t →
      ∃ d, { o with includeRelationFields := true }.document dm = .ok d ∧ d.text = t ∧
        ∃ tables,
          dm.models.mapM (fun m =>
            { o with includeRelationFields := true }.table dm m.withoutRelations) = .ok tables ∧
          tables = List.zipWith Table.withoutRelations dm.models d.tables ∧
          { o with includeRelationFields := false }.document dm = .ok { d with tables } ∧
          { o with includeRelationFields := false }.render dm = .ok { d with tables }.text ∧
          (∃ before rest : List String,
            t = "\n\n".intercalate (before ++ d.tables.map (·.text) ++ rest) ∧
            { d with tables }.text =
              "\n\n".intercalate (before ++ tables.map (·.text) ++ rest)) ∧
          List.Forall₂ (fun m b =>
              List.Forall₂ (fun f r => ∃ settings, columnSettings m f = .ok settings ∧ r.text =
                "  " ++ f.name ++ " " ++ o.rowType dm f ++ attributesText settings) m.fields b.rows ∧
              ∃ rest, b.lines = tableHeader (o.tableName m) :: (b.rows.map (·.text) ++ rest) ∧
                (b.withoutRelations m).lines = tableHeader (o.tableName m) ::
                  (((m.fields.zip b.rows).filter (!·.1.isRelation)).map (·.2.text) ++ rest))
            dm.models d.tables) ∧
    ∀ e t, { o with includeRelationFields := true }.render dm = .error e →
      { o with includeRelationFields := false }.render dm = .ok t →
      ∃ m f, IsFirst (·.2.HasUnsupportedDefault)
          ({ o with includeRelationFields := true }.shownColumns dm) (m, f) ∧
        f.isRelation = true ∧ e = .unsupportedDefault m.name f.name := by
  refine ⟨table_withoutRelations o dm, fun t ht => ?_, fun e t he ht => ?_⟩
  · obtain ⟨d, hd, rfl⟩ := render_eq_ok_iff.mp ht
    have hdocument := document_withoutRelations hd
    obtain ⟨-, -, htables, -⟩ := document_eq_ok_iff.mp hd
    have hlines := (mapM_eq_ok_iff.mp htables).imp fun _ _ hb => lines_withoutRelations hb
    refine ⟨d, hd, rfl, _, ?_, rfl, hdocument, render_eq_ok_iff.mpr ⟨_, hdocument, rfl⟩,
      text_of_tables d _, hlines⟩
    rw [← mapM_congr fun m _ => table_withoutRelations o dm m]
    exact tables_withoutRelations htables
  · obtain ⟨d, hd, -⟩ := render_eq_ok_iff.mp ht
    exact document_fails_at_relation (render_eq_error_iff.mp he) hd

namespace Blog

/-- `dataModel` with a default for `author`, of an unknown kind. -/
def defaulted : DataModel where
  models :=
    [user, { post with fields := [id, { author with default := some .unsupported }, authorId] }]

def shownRows : Options := {}

def hiddenRows : Options := { includeRelationFields := false }

theorem relationRows_document :
    (∃ d tables, { tableNames with includeRelationFields := false }.document named = .ok d ∧
      d = { document with tables } ∧ tables.map (·.rows.length) = [1, 2, 1] ∧
      ∃ before rest : List String,
        document.text = "\n\n".intercalate (before ++ document.tables.map (·.text) ++ rest) ∧
        d.text = "\n\n".intercalate (before ++ tables.map (·.text) ++ rest)) ∧
    ∃ e t, shownRows.render defaulted = .error e ∧ hiddenRows.render defaulted = .ok t ∧
      ∃ m f, IsFirst (·.2.HasUnsupportedDefault) (shownRows.shownColumns defaulted) (m, f) ∧
        f.isRelation = true ∧ e = .unsupportedDefault m.name f.name := by
  obtain ⟨-, hshown, -⟩ := document_relationRows tableNames named
  obtain ⟨-, -, hhidden⟩ := document_relationRows shownRows defaulted
  constructor
  · obtain ⟨d, hd, -, tables, -, htables, hless, -, htexts, -⟩ :=
      hshown _ (render_eq_ok_iff.mpr ⟨_, document_eq, rfl⟩)
    obtain rfl : document = d := Except.ok.inj (document_eq.symm.trans hd)
    refine ⟨_, tables, hless, rfl, ?_, htexts⟩
    rw [htables]
    decide
  · have he : shownRows.document defaulted = .error (.unsupportedDefault "Post" "author") := by
      with_unfolding_all rfl
    obtain ⟨d, hd⟩ : ∃ d, hiddenRows.document defaulted = .ok d := ⟨_, by with_unfolding_all rfl⟩
    have he := render_eq_error_iff.mpr he
    have ht := render_eq_ok_iff.mpr ⟨d, hd, rfl⟩
    exact ⟨_, _, he, ht, hhidden _ _ he ht⟩

end Blog

end Dbml
