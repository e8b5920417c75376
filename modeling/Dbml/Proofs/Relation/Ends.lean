import Dbml.Relation.Endpoint
import Dbml.Proofs.Traversal

/-!
# The ends of a data model

The fields of kind `object` of a data model by their places
(`mem_relationFields`), which come in order and so each once
(`relationFields_before`). A data model has its ends iff each of these fields
points at a model (`exists_endpoints_iff`); the ends are then these fields, in
order, with the models that they point at (`endpoints_eq_ok`).
-/

namespace Dbml

/-- Strictly before, by model and then by field. -/
def Position.Before (p q : Position) : Prop :=
  p.model < q.model ∨ p.model = q.model ∧ p.field < q.field

theorem Position.Before.ne {p q : Position} (h : p.Before q) : p ≠ q := by
  rintro rfl
  rcases h with h | ⟨-, h⟩ <;> omega

namespace DataModel

/-- A field of kind `object` at its place in a data model. -/
structure HasRelationField (dm : DataModel) (x : RelationField) : Prop where
  owner : dm.models[x.position.model]? = some x.owner
  field : x.owner.fields[x.position.field]? = some x.field
  isObject : x.field.kind = .object

/-- Such a field with the first model that has the name it points at. -/
structure HasEnd (dm : DataModel) (e : Endpoint) : Prop where
  relationField : dm.HasRelationField e.toRelationField
  target : dm.models.find? (·.name == e.field.type) = some e.target

variable {dm : DataModel}

theorem mem_of_model? {name : String} {m : Model} (h : dm.model? name = some m) :
    m ∈ dm.models ∧ m.name = name := by
  rw [model?] at h
  have hn := List.find?_some h
  exact ⟨List.mem_of_find?_eq_some h, eq_of_beq hn⟩

theorem HasEnd.target_name {e : Endpoint} (h : dm.HasEnd e) : e.target.name = e.field.type :=
  (mem_of_model? h.target).2

theorem mem_relationFields {x : RelationField} :
    x ∈ dm.relationFields ↔ dm.HasRelationField x := by
  simp only [relationFields, List.mem_flatMap, List.mem_map, List.mem_filter, Prod.exists,
    List.mem_zipIdx_iff_getElem?, Field.isRelation, decide_eq_true_eq]
  constructor
  · rintro ⟨owner, i, hi, field, j, ⟨hj, hk⟩, rfl⟩
    exact ⟨hi, hj, hk⟩
  · rintro ⟨ho, hf, hk⟩
    exact ⟨x.owner, x.position.model, ho, x.field, x.position.field, ⟨hf, hk⟩, rfl⟩

/-- The places apart, they are the fields of kind `object` of each model in turn. -/
theorem map_relationFields {α : Type} (dm : DataModel) (g : Model → Field → α) :
    dm.relationFields.map (fun x => g x.owner x.field) =
      dm.models.flatMap fun m => (m.fields.filter (·.isRelation)).map (g m) := by
  have hfst {β : Type} (l : List β) : l = l.zipIdx.map Prod.fst := (List.zipIdx_map_fst 0 l).symm
  rw [relationFields, List.map_flatMap]
  conv_rhs => rw [hfst dm.models, List.flatMap_map]
  refine List.flatMap_congr fun ⟨m, i⟩ _ => ?_
  conv_rhs => rw [hfst m.fields, List.filter_map, List.map_map]
  rw [List.map_map]
  rfl

theorem zipIdx_pairwise {α : Type} (l : List α) : l.zipIdx.Pairwise (·.2 < ·.2) := by
  rw [← List.pairwise_map (f := Prod.snd) (R := (· < ·)), List.zipIdx_map_snd]
  exact List.pairwise_lt_range'

theorem relationFields_before (dm : DataModel) :
    dm.relationFields.Pairwise (·.position.Before ·.position) := by
  rw [relationFields, List.pairwise_flatMap]
  constructor
  · rintro ⟨owner, i⟩ -
    rw [List.pairwise_map]
    exact ((zipIdx_pairwise owner.fields).filter _).imp fun h => .inr ⟨rfl, h⟩
  · refine (zipIdx_pairwise dm.models).imp fun {a b} h x hx y hy => .inl ?_
    obtain ⟨_, -, rfl⟩ := List.mem_map.mp hx
    obtain ⟨_, -, rfl⟩ := List.mem_map.mp hy
    exact h

theorem endpoint_eq_ok_iff {x : RelationField} {e : Endpoint} :
    dm.endpoint x = .ok e ↔ e.toRelationField = x ∧ dm.model? e.field.type = some e.target := by
  rw [endpoint]
  constructor
  · split
    · rintro ⟨⟩
      exact ⟨rfl, ‹_›⟩
    · exact nofun
  · rintro ⟨rfl, h⟩
    rw [h]

theorem endpoints_eq_ok {ends : List Endpoint} (h : dm.endpoints = .ok ends) :
    ends.map (·.toRelationField) = dm.relationFields ∧ ∀ e ∈ ends, dm.HasEnd e := by
  have hf := mapM_eq_ok_iff.mp h
  have hm : ends.map (·.toRelationField) = dm.relationFields := by
    simpa using map_eq_of_forall₂ (v := id) hf fun x e he => (endpoint_eq_ok_iff.mp he).1
  refine ⟨hm, fun e he => ⟨mem_relationFields.mp (hm ▸ List.mem_map_of_mem he), ?_⟩⟩
  obtain ⟨x, -, hx⟩ := exists_of_mem_forall₂ hf he
  exact (endpoint_eq_ok_iff.mp hx).2

theorem exists_endpoints_iff :
    (∃ ends, dm.endpoints = .ok ends) ↔
      ∀ x, dm.HasRelationField x → ∃ m ∈ dm.models, m.name = x.field.type := by
  simp only [endpoints, exists_mapM_eq_ok_iff, mem_relationFields]
  refine forall₂_congr fun x _ => ?_
  constructor
  · rintro ⟨e, he⟩
    obtain ⟨rfl, ht⟩ := endpoint_eq_ok_iff.mp he
    exact ⟨e.target, mem_of_model? ht⟩
  · rintro ⟨m, hm, hn⟩
    have hs : (dm.model? x.field.type).isSome := List.find?_isSome.mpr ⟨m, hm, beq_iff_eq.mpr hn⟩
    obtain ⟨t, ht⟩ := Option.isSome_iff_exists.mp hs
    exact ⟨⟨x, t⟩, endpoint_eq_ok_iff.mpr ⟨rfl, ht⟩⟩

theorem endpoints_before {ends : List Endpoint} (h : dm.endpoints = .ok ends) :
    ends.Pairwise (·.position.Before ·.position) := by
  have hp := relationFields_before dm
  rwa [← (endpoints_eq_ok h).1, List.pairwise_map] at hp

theorem exists_end {ends : List Endpoint} (h : dm.endpoints = .ok ends) {x : RelationField}
    (hx : dm.HasRelationField x) : ∃ e ∈ ends, e.toRelationField = x :=
  List.mem_map.mp ((endpoints_eq_ok h).1 ▸ mem_relationFields.mpr hx)

/-- Where a data model has its ends, every field of kind `object` points at a model. -/
theorem exists_model?_of_endpoints {ends : List Endpoint} (h : dm.endpoints = .ok ends) {m : Model}
    (hm : m ∈ dm.models) {f : Field} (hf : f ∈ m.fields) (hk : f.isRelation = true) :
    ∃ target, dm.model? f.type = some target := by
  obtain ⟨i, hi⟩ := List.mem_iff_getElem?.mp hm
  obtain ⟨j, hj⟩ := List.mem_iff_getElem?.mp hf
  have hx : dm.HasRelationField ⟨⟨i, j⟩, m, f⟩ := ⟨hi, hj, of_decide_eq_true hk⟩
  obtain ⟨e, hmem, hxe⟩ := exists_end h hx
  have ht := ((endpoints_eq_ok h).2 e hmem).target
  rw [hxe] at ht
  exact ⟨e.target, ht⟩

end DataModel

end Dbml
