import Dbml.Proofs.Document.Outcome
import Dbml.Proofs.Relation.Parts

/-!
# The document of a data model of two parts

Where no part of a data model points at the other, each has in the document of the whole what it
has in its own: its tables (`table_left`, `table_right`), its references and its join tables. So
the document of the whole is put together from theirs (`document_parts`).
-/

namespace Dbml

variable {o : Options} {dm dm₁ dm₂ : DataModel}

/-! ## References and join tables -/

theorem reference?_shift (n : Nat) (r : Relation) :
    o.reference? (r.map (Endpoint.shift n)) = o.reference? r := by
  cases r <;> rfl

theorem references_append (n : Nat) (rs₁ rs₂ : List Relation) :
    (rs₁ ++ rs₂.map (Relation.map (Endpoint.shift n))).filterMap o.reference? =
      rs₁.filterMap o.reference? ++ rs₂.filterMap o.reference? := by
  rw [List.filterMap_append, List.filterMap_map]
  exact congrArg _ (List.filterMap_congr fun r _ => reference?_shift n r)

theorem joinTables_append (n : Nat) (rs₁ rs₂ : List Relation) :
    o.joinTables (rs₁ ++ rs₂.map (Relation.map (Endpoint.shift n))) = do
      let js₁ ← o.joinTables rs₁
      let js₂ ← o.joinTables rs₂
      return js₁ ++ js₂ := by
  unfold Options.joinTables
  split
  · rw [List.filterMap_append, Relation.manyToMany?_map, List.mapM_append, List.mapM_map]
    rfl
  · rfl

/-! ## Tables -/

/-- Tables are the same where the names of models lead to the same tables. -/
theorem table_congr {dm' : DataModel} {m : Model}
    (h : ∀ f ∈ m.fields, f.isRelation = true → o.tableNameOf dm' f.type = o.tableNameOf dm f.type) :
    o.table dm' m = o.table dm m := by
  have hrow : ∀ f ∈ o.shownFields m, o.row dm' m f = o.row dm m f := by
    intro f hf
    have htype : o.rowType dm' f = o.rowType dm f := by
      unfold Options.rowType
      split
      · exact h f (List.mem_of_mem_filter hf) ‹_›
      · rfl
    rw [Options.row, Options.row, htype]
  rw [Options.table, Options.table, mapM_congr hrow]

theorem DataModel.IsClosed.exists_model? (h : dm.IsClosed) {m : Model} (hm : m ∈ dm.models)
    {f : Field} (hf : f ∈ m.fields) (hk : f.isRelation = true) :
    ∃ target, dm.model? f.type = some target := by
  obtain ⟨ends, he⟩ := DataModel.exists_endpoints_iff.mpr h
  exact DataModel.exists_model?_of_endpoints he hm hf hk

namespace DataModel.Parts

variable (h : dm.Parts dm₁ dm₂)
include h

theorem table_left {m : Model} (hm : m ∈ dm₁.models) : o.table dm m = o.table dm₁ m := by
  refine table_congr fun f hf hk => ?_
  obtain ⟨target, ht⟩ := h.closed₁.exists_model? hm hf hk
  rw [Options.tableNameOf, Options.tableNameOf, ht, h.model?_left ht]

theorem table_right {m : Model} (hm : m ∈ dm₂.models) : o.table dm m = o.table dm₂ m := by
  refine table_congr fun f hf hk => ?_
  obtain ⟨target, ht⟩ := h.closed₂.exists_model? hm hf hk
  rw [Options.tableNameOf, Options.tableNameOf, ht, h.model?_right ht]

theorem tables : dm.models.mapM (o.table dm) = do
    let ts₁ ← dm₁.models.mapM (o.table dm₁)
    let ts₂ ← dm₂.models.mapM (o.table dm₂)
    return ts₁ ++ ts₂ := by
  rw [h.models, List.mapM_append, mapM_congr fun m hm => h.table_left hm,
    mapM_congr fun m hm => h.table_right hm]

end DataModel.Parts

/-! ## Documents -/

/-- A data model of two parts that do not point at each other. Its relations are those of the
first part and then those of the second, as many models later; where a part has a fault,
that is the fault of the whole, the first part being before the second. So are its references,
and its join tables or the first fault of one, whatever the options. There is a document of the
whole iff there is one of each part, and it has what these have, one after the other. -/
theorem document_parts (h : dm.Parts dm₁ dm₂) :
    (dm.relations = do
      let rs₁ ← dm₁.relations
      let rs₂ ← dm₂.relations
      return rs₁ ++ rs₂.map (Relation.map (Endpoint.shift dm₁.models.length))) ∧
    (∀ rs₁ rs₂, dm₁.relations = .ok rs₁ → dm₂.relations = .ok rs₂ →
      ∃ rs, dm.relations = .ok rs ∧ ∀ o : Options,
        rs.filterMap o.reference? = rs₁.filterMap o.reference? ++ rs₂.filterMap o.reference? ∧
        o.joinTables rs = do
          let js₁ ← o.joinTables rs₁
          let js₂ ← o.joinTables rs₂
          return js₁ ++ js₂) ∧
    ∀ (o : Options) (d : Document), o.document dm = .ok d ↔
      ∃ d₁ d₂, o.document dm₁ = .ok d₁ ∧ o.document dm₂ = .ok d₂ ∧
        d = { project := o.project, tables := d₁.tables ++ d₂.tables, enums := dm.enums,
              references := d₁.references ++ d₂.references,
              joinTables := d₁.joinTables ++ d₂.joinTables } := by
  have hrelations {rs₁ rs₂ : List Relation} (hrs₁ : dm₁.relations = .ok rs₁)
      (hrs₂ : dm₂.relations = .ok rs₂) : dm.relations =
        .ok (rs₁ ++ rs₂.map (Relation.map (Endpoint.shift dm₁.models.length))) := by
    rw [h.relations, hrs₁, hrs₂]
    rfl
  refine ⟨h.relations, fun rs₁ rs₂ hrs₁ hrs₂ => ?_, fun o d => ?_⟩
  · exact ⟨_, hrelations hrs₁ hrs₂, fun o =>
      ⟨references_append _ rs₁ rs₂, joinTables_append _ rs₁ rs₂⟩⟩
  · simp only [document_eq_ok_iff, h.tables, bind_eq_ok_iff]
    constructor
    · rintro ⟨rs, hrs, ⟨ts₁, hts₁, ts₂, hts₂, hts⟩, hjs, hproject, henums, hrefs⟩
      rw [h.relations] at hrs
      obtain ⟨rs₁, hrs₁, hrs⟩ := bind_eq_ok_iff.mp hrs
      obtain ⟨rs₂, hrs₂, hrs⟩ := bind_eq_ok_iff.mp hrs
      obtain rfl := Except.ok.inj hrs
      rw [joinTables_append] at hjs
      obtain ⟨js₁, hjs₁, hjs⟩ := bind_eq_ok_iff.mp hjs
      obtain ⟨js₂, hjs₂, hjs⟩ := bind_eq_ok_iff.mp hjs
      rw [references_append] at hrefs
      refine ⟨⟨o.project, ts₁, dm₁.enums, _, js₁⟩, ⟨o.project, ts₂, dm₂.enums, _, js₂⟩,
        ⟨rs₁, hrs₁, hts₁, hjs₁, rfl, rfl, rfl⟩, ⟨rs₂, hrs₂, hts₂, hjs₂, rfl, rfl, rfl⟩, ?_⟩
      cases d
      exact Document.mk.injEq .. ▸
        ⟨hproject, (Except.ok.inj hts).symm, henums, hrefs, (Except.ok.inj hjs).symm⟩
    · rintro ⟨d₁, d₂, ⟨rs₁, hrs₁, hts₁, hjs₁, -, -, hrefs₁⟩,
        ⟨rs₂, hrs₂, hts₂, hjs₂, -, -, hrefs₂⟩, rfl⟩
      refine ⟨_, hrelations hrs₁ hrs₂, ⟨_, hts₁, _, hts₂, rfl⟩, ?_, rfl, rfl, ?_⟩
      · rw [joinTables_append, hjs₁, hjs₂]
        rfl
      · rw [references_append, hrefs₁, hrefs₂]

/-! ## Two parts with one name for a relation -/

namespace BlogAndShop

/-- A list that gives its relation the name that one of the blog has by default. -/
def list (name type : String) : Field where
  name := name
  kind := .object
  type := type
  isList := true
  relation := some { name := some "PostToTag" }

def cart : Model := { name := "Cart", fields := [Blog.id, list "goods" "Good"] }

def good : Model := { name := "Good", fields := [Blog.id, list "carts" "Cart"] }

def shop : DataModel := { models := [cart, good] }

/-- The relation between carts and goods, after so many other models. -/
def relation (n : Nat) : Relation :=
  .manyToMany
    { name := "PostToTag"
      explicit := true
      first := ⟨⟨⟨n, 1⟩, cart, list "goods" "Good"⟩, good⟩
      second := ⟨⟨⟨n + 1, 1⟩, good, list "carts" "Cart"⟩, cart⟩ }

def whole : DataModel := { models := Blog.dataModel.models ++ shop.models }

def options : Options := {}

theorem relations_eq : shop.relations = .ok [relation 0] := by
  rw [DataModel.relations_eq_insertionSort]
  with_unfolding_all rfl

theorem parts : whole.Parts Blog.dataModel shop where
  models := rfl
  apart := by decide
  closed₁ := (DataModel.wellRelated_of_relations Blog.relations_eq).target
  closed₂ := (DataModel.wellRelated_of_relations relations_eq).target

/-- The join tables of both parts. -/
def joinTables : List JoinTable :=
  [⟨"PostToTag", ⟨"tagsId", "Int", "Tag", "id"⟩, ⟨"postsId", "Int", "Post", "id"⟩⟩,
   ⟨"PostToTag", ⟨"goodsId", "Int", "Good", "id"⟩, ⟨"cartsId", "Int", "Cart", "id"⟩⟩]

theorem parts_whole :
    whole.Parts Blog.dataModel shop ∧
    whole.relations = .ok (Blog.relations ++ [relation 3]) ∧
    ∃ d, options.document whole = .ok d ∧ d.references.length = 1 ∧ d.joinTables = joinTables := by
  obtain ⟨hrelations, -, hdocument⟩ := document_parts parts
  obtain ⟨d₁, hd₁, hrefs, hjs₁⟩ : ∃ d, options.document Blog.dataModel = .ok d ∧
      d.references.length = 1 ∧ d.joinTables = joinTables.take 1 := by
    rw [Options.document, Blog.relations_eq]
    exact ⟨_, by with_unfolding_all rfl, rfl, rfl⟩
  obtain ⟨d₂, hd₂, hnone, hjs₂⟩ : ∃ d, options.document shop = .ok d ∧
      d.references = [] ∧ d.joinTables = joinTables.drop 1 := by
    rw [Options.document, relations_eq]
    exact ⟨_, by with_unfolding_all rfl, rfl, rfl⟩
  refine ⟨parts, ?_, _, (hdocument options _).mpr ⟨d₁, d₂, hd₁, hd₂, rfl⟩, ?_, ?_⟩
  · rw [hrelations, Blog.relations_eq, relations_eq]
    rfl
  · rw [hnone, List.append_nil, hrefs]
  · rw [hjs₁, hjs₂, List.take_append_drop]

end BlogAndShop

end Dbml
