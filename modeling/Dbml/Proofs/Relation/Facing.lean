import Dbml.Proofs.Relation.Acceptance
import Mathlib.Data.List.Permutation

/-!
# The two sides of a relation

The ends of a relation have their key in common, so either they face each other
(`Relation.Facing`), or both are fields of models with one name that point at
models with one name. The second kind is accepted too (`SameSide.not_facing`):
the relations of a data model all face each other iff none of its fields has a
partner on its own side (`relations_facing_iff`).
-/

namespace Dbml

/-- Whether each end points at a model with the name of the owner of the other end. -/
def Relation.Facing (r : Relation) : Prop :=
  r.anchor.target.name = r.counterpart.owner.name ∧ r.counterpart.target.name = r.anchor.owner.name

namespace DataModel

variable {dm : DataModel} {rs : List Relation}

theorem ends_of_mem_relations (h : dm.relations = .ok rs) {r : Relation} (hr : r ∈ rs) :
    dm.HasEnd r.anchor ∧ dm.HasEnd r.counterpart ∧ r.anchor.key = r.counterpart.key ∧
      r.anchor.position ≠ r.counterpart.position := by
  obtain ⟨ends, he, k, hk, hrel⟩ := (mem_relations_iff h).mp hr
  obtain ⟨a, b, hg, hp⟩ := RelationGroup.relation_eq_ok_iff.mp hrel
  have hmem (e : Endpoint) (hm : e ∈ r.ends) : dm.HasEnd e ∧ e.key = k := by
    rw [(Relation.ends_of_ofPair hp).mem_iff, ← hg] at hm
    obtain ⟨hm, hkey⟩ := List.mem_filter.mp hm
    exact ⟨(endpoints_eq_ok he).2 e hm, of_decide_eq_true hkey⟩
  obtain ⟨ha, hak⟩ := hmem r.anchor (r.endIn_mem .anchor)
  obtain ⟨hc, hck⟩ := hmem r.counterpart (r.endIn_mem .counterpart)
  have hpos := (List.pairwise_flatMap.mp (relations_positions h)).1 r hr
  exact ⟨ha, hc, hak.trans hck.symm, List.rel_of_pairwise_cons hpos List.mem_cons_self⟩

/-- A relation has two sides unless it joins two fields of one side. -/
theorem facing_iff_of_mem (h : dm.relations = .ok rs) {r : Relation} (hr : r ∈ rs) :
    r.Facing ↔ (r.anchor.owner.name = r.counterpart.owner.name →
      r.anchor.target.name = r.anchor.owner.name) := by
  obtain ⟨-, -, hk, -⟩ := ends_of_mem_relations h hr
  rw [Relation.Facing]
  rcases Sym2.eq_iff.mp (Endpoint.key_eq_iff.mp hk).2 with ⟨ho, ht⟩ | ⟨ho, ht⟩
  · rw [← ho, ← ht]
    exact ⟨fun h _ => h.1, fun h => ⟨h rfl, h rfl⟩⟩
  · rw [← ho, ht]
    exact ⟨fun _ h => h.symm, fun _ => ⟨rfl, rfl⟩⟩

/-- Two partners are the two ends of one of the relations. -/
theorem relation_of_partners (h : dm.relations = .ok rs) {x y : RelationField}
    (hx : dm.HasRelationField x) (hy : dm.HasRelationField y) (hne : x ≠ y) (hp : x.Partners y) :
    ∃ r ∈ rs, (r.anchor.toRelationField = x ∧ r.counterpart.toRelationField = y ∨
      r.anchor.toRelationField = y ∧ r.counterpart.toRelationField = x) := by
  obtain ⟨a, b, r, hr, hab, -, hxy⟩ := pair_of_partners h hx hy hne hp
  refine ⟨r, hr, ?_⟩
  have hab := List.perm_pair.mp (Relation.ends_of_ofPair hab)
  simp only [Relation.ends, List.cons.injEq, and_true] at hab
  rcases hab with ⟨ha, hb⟩ | ⟨ha, hb⟩ <;> rw [ha, hb]
  · exact hxy
  · exact hxy.symm.imp And.symm And.symm

/-- The relations of a data model all have two sides that face each other iff
every field with a partner on its own side points at that side; one of them has
unless its ends are fields of one side that point elsewhere. -/
theorem relations_facing_iff (h : dm.relations = .ok rs) :
    ((∀ r ∈ rs, r.Facing) ↔ ∀ x y, dm.HasRelationField x → dm.HasRelationField y → x ≠ y →
      x.Partners y → x.owner.name = y.owner.name → x.field.type = x.owner.name) ∧
    ∀ r ∈ rs, r.Facing ↔ (r.anchor.owner.name = r.counterpart.owner.name →
      r.anchor.target.name = r.anchor.owner.name) := by
  refine ⟨⟨?_, ?_⟩, fun r hr => facing_iff_of_mem h hr⟩
  · intro hall x y hx hy hne hp ho
    obtain ⟨r, hr, hxy⟩ := relation_of_partners h hx hy hne hp
    obtain ⟨ha, hc, -⟩ := ends_of_mem_relations h hr
    obtain ⟨hac, hca⟩ := hall r hr
    rw [ha.target_name] at hac
    rw [hc.target_name] at hca
    rcases hxy with ⟨rfl, rfl⟩ | ⟨rfl, rfl⟩
    · exact hac.trans ho.symm
    · exact hca.trans ho.symm
  · intro hall r hr
    rw [facing_iff_of_mem h hr]
    intro ho
    obtain ⟨ha, hc, hk, hpos⟩ := ends_of_mem_relations h hr
    rw [ha.target_name]
    exact hall _ _ ha.relationField hc.relationField (fun hxy => hpos (congrArg (·.position) hxy))
      ((ha.key_eq_iff hc).mp hk) ho

end DataModel

namespace Blog

theorem facing_relations : dataModel.relations = .ok relations ∧ ∀ r ∈ relations, r.Facing := by
  obtain ⟨-, hfacing⟩ := DataModel.relations_facing_iff relations_eq
  refine ⟨relations_eq, fun r hr => (hfacing r hr).mpr ?_⟩
  simp only [relations, List.mem_pair] at hr
  rcases hr with rfl | rfl <;> exact fun h => absurd h (by decide)

end Blog

/-! ## Two fields of one side -/

namespace SameSide

def customer : Field where
  name := "customer"
  kind := .object
  type := "User"
  relation := some { fromFields := ["customerId"], toFields := ["id"] }

def order : Model where
  name := "Order"
  fields := [Blog.id, { name := "customerId", kind := .scalar, type := "Int" }, customer,
    Blog.list "watchers" "User"]

/-- No field of it points back. -/
def user : Model := { name := "User", fields := [Blog.id] }

def dataModel : DataModel := { models := [order, user] }

def relation : Relation :=
  .oneToMany
    { foreignKey := ⟨⟨⟨0, 2⟩, order, customer⟩, user⟩
      referenced := ⟨⟨⟨0, 3⟩, order, Blog.list "watchers" "User"⟩, user⟩
      fromFields := ["customerId"]
      toFields := ["id"]
      onDelete := none }

theorem not_facing : dataModel.relations = .ok [relation] ∧ ¬ relation.Facing := by
  refine ⟨by with_unfolding_all rfl, fun h => ?_⟩
  exact absurd h.1 (by decide)

end SameSide

end Dbml
