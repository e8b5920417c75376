import Dbml.Proofs.Relation.Classification

/-!
# Relations under a map of ends

A map of ends that keeps the names of relations and tells keys apart as before
(`Grouping.KeepsKeys`) maps groups to groups: the loop that places the images does in
each step what the loop for the ends does (`Grouping.Image.place`). If it also keeps
what makes a pair of ends a relation (`Relation.KeepsSides`), the relations of the
images are the images of the relations (`relations_map`).
-/

namespace Dbml

variable {f : Endpoint → Endpoint} {ends : List Endpoint}

/-- The group of the images of ends. -/
def RelationGroup.map (f : Endpoint → Endpoint) (g : RelationGroup) : RelationGroup :=
  { g with ends := g.ends.map f }

namespace Grouping

structure KeepsKeys (f : Endpoint → Endpoint) (ends : List Endpoint) : Prop where
  relationName : ∀ e ∈ ends, (f e).relationName = e.relationName
  isExplicit : ∀ e ∈ ends, (f e).isExplicit = e.isExplicit
  key_eq_iff : ∀ e ∈ ends, ∀ e' ∈ ends, (f e).key = (f e').key ↔ e.key = e'.key

/-- `g'` groups images where `g` groups ends, as far as `ends` can tell. -/
structure Image (f : Endpoint → Endpoint) (ends : List Endpoint) (g g' : Grouping) : Prop where
  groups : g'.groups = g.groups.map (RelationGroup.map f)
  lookup : ∀ e ∈ ends, g'.index.lookup (f e).key = g.index.lookup e.key

variable {g g' : Grouping}

theorem map_modify_add (groups : List RelationGroup) (i : Nat) (e : Endpoint) :
    (groups.map (RelationGroup.map f)).modify i (·.add (f e)) =
      (groups.modify i (·.add e)).map (RelationGroup.map f) := by
  refine List.ext_getElem? fun j => ?_
  simp only [List.getElem?_modify, List.getElem?_map]
  rcases groups[j]? with _ | g
  · rfl
  · simp only [Option.map_some, Option.map_eq_map]
    split
    · simp [RelationGroup.add, RelationGroup.map]
    · rfl

theorem Image.place (hf : KeepsKeys f ends) (h : Image f ends g g') {e : Endpoint}
    (he : e ∈ ends) : Image f ends (g.place e) (g'.place (f e)) := by
  unfold Grouping.place
  rw [h.lookup e he]
  rcases hi : g.index.lookup e.key with _ | i
  · constructor
    · have hstart : RelationGroup.start (f e) = (RelationGroup.start e).map f := by
        simp only [RelationGroup.start, RelationGroup.map, hf.relationName e he,
          hf.isExplicit e he, List.map_singleton]
      rw [h.groups, hstart, List.map_append, List.map_singleton]
    · intro e' he'
      have hk : ((f e').key == (f e).key) = (e'.key == e.key) := by
        rw [Bool.eq_iff_iff, beq_iff_eq, beq_iff_eq, hf.key_eq_iff e' he' e he]
      simp only [List.lookup_cons, hk, h.lookup e' he', h.groups, List.length_map]
  · refine ⟨?_, h.lookup⟩
    rw [h.groups]
    exact map_modify_add g.groups i e

theorem ofEnds_map (hf : KeepsKeys f ends) :
    (ofEnds (ends.map f)).groups = (ofEnds ends).groups.map (RelationGroup.map f) := by
  -- The ends placed so far are generalised, the ends that keys are compared for are not.
  have hrun (placed : List Endpoint) (hp : placed ⊆ ends) (g g' : Grouping)
      (h : Image f ends g g') :
      Image f ends (placed.foldl place g) ((placed.map f).foldl place g') := by
    induction placed generalizing g g' with
    | nil => exact h
    | cons e placed ih =>
      obtain ⟨he, hp⟩ := List.cons_subset.mp hp
      exact ih hp _ _ (h.place hf he)
  exact (hrun ends (List.Subset.refl _) {} {} ⟨rfl, fun _ _ => rfl⟩).groups

end Grouping

namespace Relation

/-- The relation between the images of both ends. -/
def map (f : Endpoint → Endpoint) : Relation → Relation
  | .oneToOne r =>
    .oneToOne { r with foreignKey := f r.foreignKey, referenced := f r.referenced }
  | .oneToMany r =>
    .oneToMany { r with foreignKey := f r.foreignKey, referenced := f r.referenced }
  | .manyToMany r => .manyToMany { r with first := f r.first, second := f r.second }

theorem anchor_map (r : Relation) : (r.map f).anchor = f r.anchor := by
  cases r <;> rfl

/-- The relations between lists among the images. -/
theorem manyToMany?_map (f : Endpoint → Endpoint) (rs : List Relation) :
    (rs.map (map f)).filterMap manyToMany? =
      (rs.filterMap manyToMany?).map
        fun r => { r with first := f r.first, second := f r.second } := by
  rw [List.filterMap_map, List.map_filterMap]
  refine List.filterMap_congr fun r _ => ?_
  cases r <;> rfl

structure KeepsSides (f : Endpoint → Endpoint) : Prop where
  position (e : Endpoint) : (f e).position = e.position
  relation (e : Endpoint) : (f e).field.relation = e.field.relation
  isList (e : Endpoint) : (f e).field.isList = e.field.isList
  isUniqueKey (e : Endpoint) : (f e).owner.isUniqueKey = e.owner.isUniqueKey

namespace KeepsSides

variable (hf : KeepsSides f)
include hf

theorem fromFields (e : Endpoint) : (f e).field.fromFields = e.field.fromFields := by
  rw [Field.fromFields, hf.relation, Field.fromFields]

theorem toFields (e : Endpoint) : (f e).field.toFields = e.field.toFields := by
  rw [Field.toFields, hf.relation, Field.toFields]

theorem onDelete (e : Endpoint) : (f e).field.onDelete = e.field.onDelete := by
  rw [Field.onDelete, hf.relation, Field.onDelete]

theorem keyedPair_iff (a b : Endpoint) :
    KeyedPair (f a).owner.isUniqueKey (f a).field (f b).field ↔
      KeyedPair a.owner.isUniqueKey a.field b.field := by
  have hsides {u u' : List String → Bool} {a b a' b' : Field} (hu : u' = u)
      (ha : a'.fromFields = a.fromFields) (hb : b'.fromFields = b.fromFields)
      (ht : a'.toFields = a.toFields) (hal : a'.isList = a.isList) (hbl : b'.isList = b.isList)
      (h : KeyedPair u a b) : KeyedPair u' a' b' :=
    ⟨ha ▸ h.holds, hb ▸ h.keyless, hal ▸ h.single, ha ▸ ht ▸ h.lengths,
      hu ▸ ha ▸ hbl ▸ h.isList_iff⟩
  constructor
  · exact hsides (hf.isUniqueKey a).symm (hf.fromFields a).symm (hf.fromFields b).symm
      (hf.toFields a).symm (hf.isList a).symm (hf.isList b).symm
  · exact hsides (hf.isUniqueKey a) (hf.fromFields a) (hf.fromFields b) (hf.toFields a)
      (hf.isList a) (hf.isList b)

theorem listPair_iff (a b : Endpoint) :
    ListPair (f a).field (f b).field ↔ ListPair a.field b.field := by
  constructor
  · rintro ⟨hk, hl⟩
    rw [hf.fromFields, hf.fromFields] at hk
    rw [hf.isList, hf.isList] at hl
    exact ⟨hk, hl⟩
  · rintro ⟨hk, hl⟩
    rw [← hf.fromFields a, ← hf.fromFields b] at hk
    rw [← hf.isList a, ← hf.isList b] at hl
    exact ⟨hk, hl⟩

theorem keyed_eq (a b : Endpoint) : keyed (f a) (f b) = (keyed a b).map f := by
  simp only [keyed, hf.isList, hf.fromFields, hf.toFields, hf.onDelete]
  split <;> rfl

theorem group_relation_iff {g : RelationGroup} {r' : Relation} :
    (g.map f).relation = .ok r' ↔ ∃ r, g.relation = .ok r ∧ r' = r.map f := by
  have hpair (a b : Endpoint) (r' : Relation) :
      ofPair g.name g.explicit (f a) (f b) = .ok r' ↔
        ∃ r, ofPair g.name g.explicit a b = .ok r ∧ r' = r.map f := by
    simp only [ofPair_eq_ok_iff, hf.keyedPair_iff, hf.listPair_iff, hf.keyed_eq]
    constructor
    · rintro (⟨hk, rfl⟩ | ⟨hk, rfl⟩ | ⟨hl, rfl⟩)
      · exact ⟨_, .inl ⟨hk, rfl⟩, rfl⟩
      · exact ⟨_, .inr (.inl ⟨hk, rfl⟩), rfl⟩
      · exact ⟨_, .inr (.inr ⟨hl, rfl⟩), rfl⟩
    · rintro ⟨_, ⟨hk, rfl⟩ | ⟨hk, rfl⟩ | ⟨hl, rfl⟩, rfl⟩
      · exact .inl ⟨hk, rfl⟩
      · exact .inr (.inl ⟨hk, rfl⟩)
      · exact .inr (.inr ⟨hl, rfl⟩)
  simp only [RelationGroup.relation_eq_ok_iff, RelationGroup.map]
  constructor
  · rintro ⟨a', b', hg, hr'⟩
    obtain ⟨a, _, hg, rfl, hb⟩ := List.map_eq_cons_iff.mp hg
    obtain ⟨b, _, rfl, rfl, hnil⟩ := List.map_eq_cons_iff.mp hb
    obtain rfl := List.map_eq_nil_iff.mp hnil
    obtain ⟨r, hr, rfl⟩ := (hpair a b r').mp hr'
    exact ⟨r, ⟨a, b, hg, hr⟩, rfl⟩
  · rintro ⟨r, ⟨a, b, hg, hr⟩, rfl⟩
    exact ⟨f a, f b, by rw [hg, List.map_cons, List.map_singleton],
      (hpair a b _).mpr ⟨r, hr, rfl⟩⟩

theorem le_map (r s : Relation) : (r.map f).le (s.map f) = r.le s := by
  rw [le, le, anchor_map, anchor_map, hf.position, hf.position]

end KeepsSides

end Relation

/-- The relations of a data model whose ends are the images of those of another one. -/
theorem DataModel.relations_map {dm dm' : DataModel} (he : dm.endpoints = .ok ends)
    (he' : dm'.endpoints = .ok (ends.map f)) (hk : Grouping.KeepsKeys f ends)
    (hs : Relation.KeepsSides f) {rs' : List Relation} :
    dm'.relations = .ok rs' ↔ ∃ rs, dm.relations = .ok rs ∧ rs' = rs.map (Relation.map f) := by
  have hsort (us : List Relation) : (us.mergeSort Relation.le).map (Relation.map f) =
      (us.map (Relation.map f)).mergeSort Relation.le :=
    List.map_mergeSort fun r _ s _ => (hs.le_map r s).symm
  simp only [relations, he, he', bind_eq_ok_iff, Except.ok.injEq, exists_eq_left',
    Grouping.ofEnds_map hk, mapM_map_eq_ok_iff fun g _ _ => hs.group_relation_iff]
  constructor
  · rintro ⟨_, ⟨us, hus, rfl⟩, h⟩
    exact ⟨_, ⟨us, hus, rfl⟩, (Except.ok.inj h).symm.trans (hsort us).symm⟩
  · rintro ⟨_, ⟨us, hus, h⟩, rfl⟩
    refine ⟨_, ⟨us, hus, rfl⟩, ?_⟩
    rw [← Except.ok.inj h, hsort]
    rfl

end Dbml
