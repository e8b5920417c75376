import Dbml.Proofs.Document.Blocks
import Dbml.Proofs.Document.Outcome

/-!
# Documents with and without join tables

Whether there are join tables changes nothing else in a document: the document with them is
the one without them, followed by the join tables (`document_manyToMany`), and its text is
the other text, followed by theirs (`render_manyToMany`). In either document the blocks that
are references are those of the relations with a foreign key
(`filter_isReference`).
-/

namespace Dbml

open Text (separated toList_intercalate_cons)

variable {o : Options} {dm : DataModel} {d : Document}

namespace Document

/-- Whether a block is the line of a reference. -/
def IsReference (block : String) : Prop := "Ref: ".toList <+: block.toList

instance (block : String) : Decidable (IsReference block) :=
  inferInstanceAs (Decidable (_ <+: _))

end Document

/-! ## The text of a document that is extended -/

theorem intercalate_append {separator x : String} {xs ys : List String} :
    separator.intercalate (x :: xs ++ ys) =
      separator.intercalate (x :: xs) ++ String.join (ys.map (separator ++ ·)) := by
  rw [← String.toList_inj, String.toList_append, List.cons_append, toList_intercalate_cons,
    toList_intercalate_cons, Text.separated_append, List.append_assoc, String.toList_join,
    List.flatMap_map]
  simp only [separated, String.toList_append]

namespace Document

/-- The join tables come last, each after an empty line. -/
theorem text_joinTables (h : d.joinTables = []) (js : List JoinTable) :
    { d with joinTables := js }.text =
      d.text ++ String.join (js.map fun j => "\n\n" ++ j.text) := by
  have hblocks : { d with joinTables := js }.blocks = d.blocks ++ js.map (·.text) := by
    simp [blocks, h]
  obtain ⟨rest, hrest⟩ : ∃ rest, d.blocks = banner :: rest := ⟨_, rfl⟩
  rw [text, text, hblocks, hrest, intercalate_append, List.map_map]
  rfl

end Document

/-! ## Two runs -/

/-- A document with join tables is the one without them, and then they are made. -/
theorem document_manyToMany (o : Options) (dm : DataModel) :
    { o with manyToMany := true }.document dm = do
      let d ← { o with manyToMany := false }.document dm
      let relations ← dm.relations
      let joinTables ← (relations.filterMap Relation.manyToMany?).mapM o.joinTable
      return { d with joinTables } := by
  have htable (b : Bool) : { o with manyToMany := b }.table dm = o.table dm := rfl
  simp only [Options.document, htable]
  cases dm.relations with
  | error e => rfl
  | ok rs =>
    cases dm.models.mapM (o.table dm) with
    | error e => rfl
    | ok ts => rfl

/-- Where there is a text without join tables, that with them is the same text and theirs. -/
theorem render_of_manyToMany {t : String} {rs : List Relation}
    (h : { o with manyToMany := false }.render dm = .ok t) (hrs : dm.relations = .ok rs) :
    { o with manyToMany := true }.render dm =
      (fun js => t ++ String.join (js.map fun j => "\n\n" ++ j.text)) <$>
        (rs.filterMap Relation.manyToMany?).mapM o.joinTable := by
  obtain ⟨d, hd, rfl⟩ := render_eq_ok_iff.mp h
  obtain ⟨rs', -, -, hnone, -⟩ := document_eq_ok_iff.mp hd
  have hdoc : { o with manyToMany := true }.document dm =
      (fun js => { d with joinTables := js }) <$>
        (rs.filterMap Relation.manyToMany?).mapM o.joinTable := by
    rw [document_manyToMany, hd, hrs]
    rfl
  rw [Options.render, hdoc, Functor.map_map]
  have htext := funext fun js => Document.text_joinTables (Except.ok.inj hnone).symm js
  exact congrArg (· <$> _) htext

/-! ## References among the blocks -/

namespace Document

theorem isReference_text (r : Reference) : IsReference r.text := by
  simp only [IsReference, Reference.text, String.toList_append, List.append_assoc]
  exact List.prefix_append _ _

/-- A block that starts with another letter is no reference. -/
theorem not_isReference {block : String} {c : Char} (h : block.toList.head? = some c)
    (hc : c ≠ 'R') : ¬ IsReference block := by
  rintro ⟨rest, hrest⟩
  rw [← hrest] at h
  exact hc (Option.some.inj h).symm

/-- The blocks that are references are those written as such. -/
theorem filter_isReference (d : Document) :
    d.blocks.filter (IsReference ·) = d.references.map (·.text) := by
  have hnone {α : Type} (xs : List α) (text : α → String) (c : Char) (hc : c ≠ 'R')
      (h : ∀ x, (text x).toList.head? = some c) : (xs.map text).filter (IsReference ·) = [] := by
    refine List.filter_eq_nil_iff.mpr (List.forall_mem_map.mpr fun x _ => ?_)
    exact decide_eq_true_iff.not.mpr (not_isReference (h x) hc)
  have hbanner : ¬ IsReference banner := not_isReference head?_banner (by decide)
  have hproject := hnone d.project.toList Project.text 'P' (by decide) fun p => by
    simp [Project.text, Project.lines]
  have htables := hnone d.tables Table.text 'T' (by decide) fun t => by
    simp [Table.text, Table.lines, tableHeader]
  have henums := hnone d.enums Enumeration.text 'E' (by decide) fun e => by
    simp [Enumeration.text, Enumeration.lines]
  have hjoinTables := hnone d.joinTables JoinTable.text 'T' (by decide) fun j => by
    simp [JoinTable.text, JoinTable.lines, tableHeader]
  have hreferences : (d.references.map Reference.text).filter (IsReference ·) =
      d.references.map Reference.text :=
    List.filter_eq_self.mpr
      (List.forall_mem_map.mpr fun r _ => decide_eq_true (isReference_text r))
  rw [← Option.toList_map] at hproject
  simp only [blocks, List.filter_cons, List.filter_append, hbanner, hproject, htables, henums,
    hreferences, hjoinTables, decide_false, Bool.false_eq_true, if_false, List.nil_append,
    List.append_nil]

theorem countP_isReference (d : Document) :
    d.blocks.countP (IsReference ·) = d.references.length := by
  rw [List.countP_eq_length_filter, filter_isReference, List.length_map]

end Document

theorem length_references (o : Options) (rs : List Relation) :
    (rs.filterMap o.reference?).length = (rs.filterMap Relation.direct?).length := by
  rw [List.length_filterMap_eq_countP, List.length_filterMap_eq_countP]
  refine List.countP_congr fun r _ => ?_
  cases r <;> simp [Options.reference?, Relation.direct?]

/-- Documents with join tables against those without, all other options being the same. If the
run without them fails, the other one fails in the same way. If it gives a text, the other run
either finds an end of a relation between lists that points at a model without an
identifying field, or it gives this text and, each after an empty line, one join table for
each relation between lists, in order: a line that opens it, one for each end, and one that closes
it. In both, the blocks that are references are as many as the relations with a foreign key. -/
theorem render_manyToMany (o : Options) (dm : DataModel) :
    (∀ e, { o with manyToMany := false }.render dm = .error e →
      { o with manyToMany := true }.render dm = .error e) ∧
    (∀ t, { o with manyToMany := false }.render dm = .ok t →
      ∃ rs, dm.relations = .ok rs ∧
        ((∃ x ∈ listEnds rs, ¬ x.target.HasId ∧
            { o with manyToMany := true }.render dm = .error (.missingIdField x.target.name)) ∨
          ∃ js, List.Forall₂ (fun r j => o.joinTable r = .ok j ∧
                ∃ id id', r.first.target.idField? = some id ∧ r.second.target.idField? = some id' ∧
                  j.text = "\n".intercalate [tableHeader r.name, o.joinLine r.explicit r.first id,
                    o.joinLine r.explicit r.second id', "\x7d"])
              (rs.filterMap Relation.manyToMany?) js ∧
            { o with manyToMany := true }.render dm =
              .ok (t ++ String.join (js.map fun j => "\n\n" ++ j.text)))) ∧
    ∀ b t, { o with manyToMany := b }.render dm = .ok t →
      ∃ d rs, { o with manyToMany := b }.document dm = .ok d ∧ d.text = t ∧
        dm.relations = .ok rs ∧
        d.blocks.countP (Document.IsReference ·) = (rs.filterMap Relation.direct?).length := by
  refine ⟨fun e he => ?_, fun t ht => ?_, fun b t ht => ?_⟩
  · rw [render_eq_error_iff] at he ⊢
    rw [document_manyToMany, he]
    rfl
  · obtain ⟨d, hd, -⟩ := render_eq_ok_iff.mp ht
    obtain ⟨rs, hrs, -⟩ := document_eq_ok_iff.mp hd
    refine ⟨rs, hrs, ?_⟩
    have hrender := render_of_manyToMany ht hrs
    cases hjs : (rs.filterMap Relation.manyToMany?).mapM o.joinTable with
    | error e =>
      have hfail : { o with manyToMany := true }.joinTables rs = .error e := hjs
      obtain ⟨-, x, hx, rfl⟩ := joinTables_eq_error_iff.mp hfail
      exact .inl ⟨x, hx.mem.1, hx.mem.2, by rw [hrender, hjs]; rfl⟩
    | ok js =>
      have hmade := (mapM_eq_ok_iff.mp hjs).imp fun r j hj => And.intro hj (joinTable_text hj)
      exact .inr ⟨js, hmade, by rw [hrender, hjs]; rfl⟩
  · obtain ⟨d, hd, hdt⟩ := render_eq_ok_iff.mp ht
    obtain ⟨rs, hrs, -, -, -, -, href⟩ := document_eq_ok_iff.mp hd
    refine ⟨d, rs, hd, hdt, hrs, ?_⟩
    rw [Document.countP_isReference, href, length_references]

namespace Band

def id : Field := { name := "id", kind := .scalar, type := "Int", isId := true }

def members : Field := { name := "members", kind := .object, type := "Member", isList := true }

def bands : Field := { name := "bands", kind := .object, type := "Band", isList := true }

def band : Model := { name := "Band", fields := [id, members] }

def member : Model := { name := "Member", fields := [id, bands] }

def dataModel : DataModel := { models := [band, member] }

/-- `dataModel` without the members that its bands point at. -/
def memberless : DataModel := { models := [band] }

def relation : ManyToMany where
  name := "BandToMember"
  explicit := false
  first := ⟨⟨⟨0, 1⟩, band, members⟩, member⟩
  second := ⟨⟨⟨1, 1⟩, member, bands⟩, band⟩

def joinTable : JoinTable :=
  ⟨"BandToMember", ⟨"membersId", "Int", "Member", "id"⟩, ⟨"bandsId", "Int", "Band", "id"⟩⟩

theorem relations_eq : dataModel.relations = .ok [.manyToMany relation] := by
  with_unfolding_all rfl

theorem manyToMany_render :
    (∃ t, { ({} : Options) with manyToMany := false }.render dataModel = .ok t ∧
      ({} : Options).render dataModel = .ok (t ++ String.join ["\n\n" ++ joinTable.text]) ∧
      ∃ d, ({} : Options).document dataModel = .ok d ∧
        d.blocks.countP (Document.IsReference ·) = 0) ∧
    ∃ e, { ({} : Options) with manyToMany := false }.render memberless = .error e ∧
      ({} : Options).render memberless = .error e := by
  obtain ⟨-, happend, hrefs⟩ := render_manyToMany {} dataModel
  obtain ⟨d, hd⟩ : ∃ d, { ({} : Options) with manyToMany := false }.document dataModel = .ok d :=
    ⟨_, by with_unfolding_all rfl⟩
  have ht := render_eq_ok_iff.mpr ⟨d, hd, rfl⟩
  have hids : ∀ x ∈ listEnds [.manyToMany relation], ∃ f ∈ x.target.fields, f.isId = true := by
    decide
  constructor
  · obtain ⟨rs, hrs, hcase⟩ := happend _ ht
    obtain rfl : [.manyToMany relation] = rs := Except.ok.inj (relations_eq.symm.trans hrs)
    rcases hcase with ⟨x, hx, hid, -⟩ | ⟨js, hjs, hrender⟩
    · exact absurd (hids x hx) hid
    · obtain ⟨j, js, ⟨hj, -⟩, hnil, rfl⟩ := List.forall₂_cons_left_iff.mp hjs
      obtain rfl : joinTable = j := Except.ok.inj hj
      obtain rfl := List.forall₂_nil_left_iff.mp hnil
      obtain ⟨d', rs', hd', -, hrs', hcount⟩ := hrefs true _ hrender
      obtain rfl : [.manyToMany relation] = rs' := Except.ok.inj (relations_eq.symm.trans hrs')
      exact ⟨_, ht, hrender, d', hd', hcount⟩
  · obtain ⟨e, he⟩ : ∃ e, { ({} : Options) with manyToMany := false }.document memberless =
        .error e := ⟨_, by with_unfolding_all rfl⟩
    have he := render_eq_error_iff.mpr he
    exact ⟨e, he, (render_manyToMany {} memberless).1 e he⟩

end Band

end Dbml
