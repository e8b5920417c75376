import Dbml.Proofs.Relation.Classification
import Mathlib.Logic.ExistsUnique

/-!
# Every field of kind `object` is in one place of one relation

No such field is lost, found twice or made up (`relations_cover`): the ends of
the relations are, up to their order, those of the data model, and these come
from its fields in order.
-/

namespace Dbml

namespace Relation

/-- The two places of a relation: that of the anchor, which is the end with the
foreign key or the first one, and that of the other end. -/
inductive Role
  | anchor
  | counterpart
  deriving DecidableEq

/-- The end in a place. -/
def endIn (r : Relation) : Role → Endpoint
  | .anchor => r.anchor
  | .counterpart => r.counterpart

theorem mem_ends {r : Relation} {e : Endpoint} : e ∈ r.ends ↔ ∃ role, r.endIn role = e := by
  rw [ends, List.mem_pair]
  constructor
  · rintro (rfl | rfl)
    · exact ⟨.anchor, rfl⟩
    · exact ⟨.counterpart, rfl⟩
  · rintro ⟨_ | _, rfl⟩
    · exact .inl rfl
    · exact .inr rfl

theorem endIn_mem (r : Relation) (role : Role) : r.endIn role ∈ r.ends := mem_ends.mpr ⟨role, rfl⟩

/-- Where no two ends are at the same place, each end is in one place of one relation. -/
theorem existsUnique_endIn {rs : List Relation}
    (hn : (rs.flatMap ends).Pairwise (·.position ≠ ·.position)) {e : Endpoint}
    (he : e ∈ rs.flatMap ends) :
    ∃! o : Nat × Role, ∃ r, rs[o.1]? = some r ∧ (r.endIn o.2).position = e.position := by
  obtain ⟨hin, hbetween⟩ := List.pairwise_flatMap.mp hn
  obtain ⟨r, hr, he⟩ := List.mem_flatMap.mp he
  obtain ⟨i, hi⟩ := List.mem_iff_getElem?.mp hr
  obtain ⟨role, rfl⟩ := mem_ends.mp he
  refine ⟨(i, role), ⟨r, hi, rfl⟩, ?_⟩
  rintro ⟨j, role'⟩ ⟨r', hj, hp⟩
  simp only at hj hp
  have hne {i j : Nat} {r r' : Relation} (hi : rs[i]? = some r) (hj : rs[j]? = some r')
      (hij : i < j) (role role' : Role) : (r.endIn role).position ≠ (r'.endIn role').position := by
    obtain ⟨hi', rfl⟩ := List.getElem?_eq_some_iff.mp hi
    obtain ⟨hj', rfl⟩ := List.getElem?_eq_some_iff.mp hj
    exact List.pairwise_iff_getElem.mp hbetween i j hi' hj' hij _ (endIn_mem _ _) _ (endIn_mem _ _)
  rcases Nat.lt_trichotomy i j with hij | rfl | hij
  · exact absurd hp.symm (hne hi hj hij role role')
  · obtain rfl : r = r' := Option.some.inj (hi.symm.trans hj)
    have hd : r.anchor.position ≠ r.counterpart.position :=
      List.rel_of_pairwise_cons (hin r hr) List.mem_cons_self
    cases role <;> cases role'
    · rfl
    · exact absurd hp.symm hd
    · exact absurd hp hd
    · rfl
  · exact absurd hp (hne hj hi hij role' role)

end Relation

namespace DataModel

variable {dm : DataModel}

/-- No two ends of relations are at the same place. -/
theorem relations_positions {rs : List Relation} (h : dm.relations = .ok rs) :
    (rs.flatMap Relation.ends).Pairwise (·.position ≠ ·.position) := by
  obtain ⟨ends, he, hp⟩ := relations_ends_perm h
  exact (hp.pairwise_iff fun h => Ne.symm h).mpr ((endpoints_before he).imp Position.Before.ne)

/-- Of the relations of a data model: every field of kind `object` is in one
place of one of them; every end in them is such a field, with its owner and
with the first model that has the name it points at; there are half as many of
them as there are such fields; and whenever the next end is placed, the index
leads to groups that are there. -/
theorem relations_cover {rs : List Relation} (h : dm.relations = .ok rs) :
    (∀ x, dm.HasRelationField x →
      ∃! o : Nat × Relation.Role, ∃ r, rs[o.1]? = some r ∧ (r.endIn o.2).position = x.position) ∧
    (∀ r ∈ rs, ∀ role, dm.HasEnd (r.endIn role)) ∧
    (dm.models.flatMap fun m => m.fields.filter (·.isRelation)).length = 2 * rs.length ∧
    ∃ ends, dm.endpoints = .ok ends ∧ ∀ n key i,
      (Grouping.ofEnds (ends.take n)).index.lookup key = some i →
        i < (Grouping.ofEnds (ends.take n)).groups.length := by
  obtain ⟨ends, he, hp⟩ := relations_ends_perm h
  obtain ⟨hm, hall⟩ := endpoints_eq_ok he
  refine ⟨fun x hx => ?_, fun r hr role => ?_, ?_, ends, he, fun n key i hi => ?_⟩
  · obtain ⟨e, hem, rfl⟩ := exists_end he hx
    exact Relation.existsUnique_endIn (relations_positions h) (hp.mem_iff.mpr hem)
  · exact hall _ (hp.mem_iff.mp (List.mem_flatMap.mpr ⟨r, hr, r.endIn_mem role⟩))
  · have hl := hp.length_eq
    have hf := map_relationFields dm fun _ f => f
    simp only [List.map_id'] at hf
    rw [← hf, List.length_map, ← hm, List.length_map, ← hl]
    simp [List.length_flatMap, Relation.ends, Nat.mul_comm]
  · have hholds := Grouping.ofEnds_holds fun e (he : e ∈ ends.take n) =>
      (hall e (List.mem_of_mem_take he)).target_name
    exact hholds.lookup_lt hi

end DataModel

/-! ## A data model with both shapes of relations -/

namespace Blog

def id : Field := { name := "id", kind := .scalar, type := "Int", isId := true }

/-- A list of models. -/
def list (name type : String) : Field := { name, kind := .object, type, isList := true }

/-- The column that `author` keeps its key in. -/
def authorId : Field := { name := "authorId", kind := .scalar, type := "Int" }

def author : Field where
  name := "author"
  kind := .object
  type := "User"
  relation := some { fromFields := ["authorId"], toFields := ["id"], onDelete := some .cascade }

def user : Model := { name := "User", fields := [id, list "posts" "Post"] }

def post : Model := { name := "Post", fields := [id, authorId, author, list "tags" "Tag"] }

def tag : Model := { name := "Tag", fields := [id, list "posts" "Post"] }

def dataModel : DataModel := { models := [user, post, tag] }

def relations : List Relation :=
  [.oneToMany
      { foreignKey := ⟨⟨⟨1, 2⟩, post, author⟩, user⟩
        referenced := ⟨⟨⟨0, 1⟩, user, list "posts" "Post"⟩, post⟩
        fromFields := ["authorId"]
        toFields := ["id"]
        onDelete := some .cascade },
    .manyToMany
      { name := "PostToTag"
        explicit := false
        first := ⟨⟨⟨1, 3⟩, post, list "tags" "Tag"⟩, tag⟩
        second := ⟨⟨⟨2, 1⟩, tag, list "posts" "Post"⟩, post⟩ }]

theorem relations_eq : dataModel.relations = .ok relations := by
  rw [DataModel.relations_eq_insertionSort]
  with_unfolding_all rfl

theorem cover_relations :
    dataModel.relations = .ok relations ∧
    (∃! o : Nat × Relation.Role, ∃ r, relations[o.1]? = some r ∧
      (r.endIn o.2).position = ⟨2, 1⟩) ∧
    (∀ r ∈ relations, ∀ role, dataModel.HasEnd (r.endIn role)) ∧
    (dataModel.models.flatMap fun m => m.fields.filter (·.isRelation)).length =
      2 * relations.length := by
  obtain ⟨hcover, hends, hcount, -⟩ := DataModel.relations_cover relations_eq
  exact ⟨relations_eq, hcover ⟨⟨2, 1⟩, tag, list "posts" "Post"⟩ ⟨rfl, rfl, rfl⟩, hends, hcount⟩

end Blog

end Dbml
