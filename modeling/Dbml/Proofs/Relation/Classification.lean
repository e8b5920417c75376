import Dbml.Relation.Classification
import Dbml.Proofs.Relation.Ends
import Dbml.Proofs.Relation.Grouping
import Mathlib.Data.List.Sort

/-!
# What a relation is made of

A pair of ends is a relation in one of two shapes: one of them holds a foreign
key to the other (`KeyedPair`), or both are lists without a key (`ListPair`).
`ofPair_eq_ok_iff` says that the classification of a pair accepts these shapes
and no others, and which relation it then is. The relations of a data model are
those of the groups of all keys (`relations_eq_ok_iff`, `mem_relations_iff`).
-/

namespace Dbml

namespace Field

/-- The columns of the foreign key that a field holds, if any. -/
def fromFields (f : Field) : List String := (f.relation.map (·.fromFields)).getD []

/-- The columns that the foreign key references. -/
def toFields (f : Field) : List String := (f.relation.map (·.toFields)).getD []

def onDelete (f : Field) : Option DeleteAction := f.relation.bind (·.onDelete)

theorem holdsForeignKey_eq (f : Field) : f.holdsForeignKey = !f.fromFields.isEmpty := by
  unfold holdsForeignKey fromFields
  cases f.relation <;> rfl

/-- A field with columns of a foreign key says what it refers to. -/
theorem exists_side {f : Field} (h : f.fromFields ≠ []) :
    ∃ side, f.relation = some side ∧ f.fromFields = side.fromFields ∧
      f.toFields = side.toFields ∧ f.onDelete = side.onDelete := by
  revert h
  unfold fromFields toFields onDelete
  rcases f.relation with _ | side
  · exact fun h => absurd rfl h
  · exact fun _ => ⟨side, rfl, rfl, rfl, rfl⟩

end Field

/-- `holder` holds a foreign key to the model of `back`; `isUnique` says of
columns of its own model whether they are unique. -/
structure KeyedPair (isUnique : List String → Bool) (holder back : Field) : Prop where
  holds : holder.fromFields ≠ []
  keyless : back.fromFields = []
  single : holder.isList = false
  lengths : holder.toFields.length = holder.fromFields.length
  isList_iff : back.isList = true ↔ isUnique holder.fromFields = false

/-- Both fields are lists, and neither holds a foreign key. -/
structure ListPair (a b : Field) : Prop where
  keyless : a.fromFields = [] ∧ b.fromFields = []
  lists : a.isList = true ∧ b.isList = true

theorem KeyedPair.isUnique_eq {u : List String → Bool} {a b : Field} (h : KeyedPair u a b) :
    u a.fromFields = !b.isList := by
  rw [Bool.eq_not_iff, ne_eq, Bool.eq_iff_iff, h.isList_iff]
  cases u a.fromFields <;> decide

theorem KeyedPair.not_swap {u u' : List String → Bool} {a b : Field} (h : KeyedPair u a b) :
    ¬ KeyedPair u' b a := fun h' => h.holds h'.keyless

theorem KeyedPair.not_listPair {u : List String → Bool} {a b : Field} (h : KeyedPair u a b) :
    ¬ ListPair a b := fun h' => h.holds h'.keyless.1

theorem ListPair.symm {a b : Field} (h : ListPair a b) : ListPair b a :=
  ⟨h.keyless.symm, h.lists.symm⟩

namespace Relation

/-- The relation of a foreign key. -/
def keyed (foreignKey referenced : Endpoint) : Relation :=
  let relation : DirectRelation :=
    { foreignKey, referenced, fromFields := foreignKey.field.fromFields,
      toFields := foreignKey.field.toFields, onDelete := foreignKey.field.onDelete }
  if referenced.field.isList then .oneToMany relation else .oneToOne relation

/-- The end that is not the anchor. -/
def counterpart : Relation → Endpoint
  | .oneToOne r | .oneToMany r => r.referenced
  | .manyToMany r => r.second

/-- Both ends. -/
def ends (r : Relation) : List Endpoint := [r.anchor, r.counterpart]

@[simp] theorem anchor_keyed (a b : Endpoint) : (keyed a b).anchor = a := by
  unfold keyed
  split <;> rfl

@[simp] theorem counterpart_keyed (a b : Endpoint) : (keyed a b).counterpart = b := by
  unfold keyed
  split <;> rfl

theorem keyed_ne_manyToMany (a b : Endpoint) (r : ManyToMany) : keyed a b ≠ .manyToMany r := by
  unfold keyed
  split <;> exact nofun

theorem ofForeignKey_eq_ok_iff {a b : Endpoint} {r : Relation} (ha : a.field.fromFields ≠ [])
    (hb : b.field.fromFields = []) :
    ofForeignKey a b = .ok r ↔ KeyedPair a.owner.isUniqueKey a.field b.field ∧ r = keyed a b := by
  obtain ⟨side, hs, hf, ht, hd⟩ := Field.exists_side ha
  have hk : KeyedPair a.owner.isUniqueKey a.field b.field ↔
      side.toFields.length = side.fromFields.length ∧ a.field.isList = false ∧
        (b.field.isList = true ↔ a.owner.isUniqueKey side.fromFields = false) := by
    rw [← hf, ← ht]
    exact ⟨fun h => ⟨h.lengths, h.single, h.isList_iff⟩, fun ⟨h, h', h''⟩ => ⟨ha, hb, h', h, h''⟩⟩
  rw [hk, keyed, hf, ht, hd, ofForeignKey, hs]
  by_cases hl : side.toFields.length = side.fromFields.length
  · rcases a.field.isList with _ | _
    · rcases hb' : b.field.isList with _ | _ <;>
        rcases hu : a.owner.isUniqueKey side.fromFields with _ | _ <;> simp [hl, hu, eq_comm]
    · simp [hl]
  · simp [hl]

theorem ofPair_eq_ok_iff {name : String} {explicit : Bool} {a b : Endpoint} {r : Relation} :
    ofPair name explicit a b = .ok r ↔
      KeyedPair a.owner.isUniqueKey a.field b.field ∧ r = keyed a b ∨
      KeyedPair b.owner.isUniqueKey b.field a.field ∧ r = keyed b a ∨
      ListPair a.field b.field ∧
        r = .manyToMany { name, explicit, first := a, second := b } := by
  rw [ofPair, Endpoint.holdsForeignKey, Endpoint.holdsForeignKey, Field.holdsForeignKey_eq,
    Field.holdsForeignKey_eq]
  by_cases ha : a.field.fromFields = [] <;> by_cases hb : b.field.fromFields = []
  · have hk : ¬ KeyedPair a.owner.isUniqueKey a.field b.field := fun h => h.holds ha
    have hk' : ¬ KeyedPair b.owner.isUniqueKey b.field a.field := fun h => h.holds hb
    have hl : ListPair a.field b.field ↔ a.field.isList = true ∧ b.field.isList = true :=
      ⟨fun h => h.lists, fun h => ⟨⟨ha, hb⟩, h⟩⟩
    rw [ha, hb]
    by_cases h : a.field.isList = true ∧ b.field.isList = true
    · simp [hk, hk', hl, h, eq_comm]
    · simp [hk, hk', hl, h]
  · have hk : ¬ KeyedPair a.owner.isUniqueKey a.field b.field := fun h => hb h.keyless
    have hl : ¬ ListPair a.field b.field := fun h => hb h.keyless.2
    simp only [ha, List.isEmpty_nil, List.isEmpty_eq_false_iff.mpr hb, Bool.not_true,
      Bool.not_false, ofForeignKey_eq_ok_iff hb ha, hk, hl, false_and, false_or, or_false]
  · have hk : ¬ KeyedPair b.owner.isUniqueKey b.field a.field := fun h => ha h.keyless
    have hl : ¬ ListPair a.field b.field := fun h => ha h.keyless.1
    simp only [hb, List.isEmpty_nil, List.isEmpty_eq_false_iff.mpr ha, Bool.not_true,
      Bool.not_false, ofForeignKey_eq_ok_iff ha hb, hk, hl, false_and, or_false]
  · have hk : ¬ KeyedPair a.owner.isUniqueKey a.field b.field := fun h => hb h.keyless
    have hk' : ¬ KeyedPair b.owner.isUniqueKey b.field a.field := fun h => ha h.keyless
    have hl : ¬ ListPair a.field b.field := fun h => ha h.keyless.1
    simp only [List.isEmpty_eq_false_iff.mpr ha, List.isEmpty_eq_false_iff.mpr hb, Bool.not_false,
      hk, hk', hl, false_and, or_false, reduceCtorEq]

/-- The two ends of a pair are those of its relation. -/
theorem ends_of_ofPair {name : String} {explicit : Bool} {a b : Endpoint} {r : Relation}
    (h : ofPair name explicit a b = .ok r) : r.ends.Perm [a, b] := by
  rcases ofPair_eq_ok_iff.mp h with ⟨-, rfl⟩ | ⟨-, rfl⟩ | ⟨-, rfl⟩
  · rw [ends, anchor_keyed, counterpart_keyed]
  · rw [ends, anchor_keyed, counterpart_keyed]
    exact .swap a b []
  · exact .refl _

end Relation

theorem RelationGroup.relation_eq_ok_iff {g : RelationGroup} {r : Relation} :
    g.relation = .ok r ↔
      ∃ a b, g.ends = [a, b] ∧ Relation.ofPair g.name g.explicit a b = .ok r := by
  unfold relation
  split
  · rename_i a b hg
    rw [mapError_eq_ok_iff, hg]
    exact ⟨fun h => ⟨a, b, rfl, h⟩, by rintro ⟨_, _, ⟨⟩, h⟩; exact h⟩
  · rename_i hg
    exact ⟨nofun, fun ⟨a, b, he, _⟩ => absurd he (hg a b)⟩

theorem RelationGroup.eq_of_manyToMany {g : RelationGroup} {r : ManyToMany}
    (h : g.relation = .ok (.manyToMany r)) : g = ⟨r.name, r.explicit, [r.first, r.second]⟩ := by
  obtain ⟨a, b, hends, hp⟩ := relation_eq_ok_iff.mp h
  rcases Relation.ofPair_eq_ok_iff.mp hp with ⟨-, hk⟩ | ⟨-, hk⟩ | ⟨-, hm⟩
  · exact absurd hk.symm (Relation.keyed_ne_manyToMany a b r)
  · exact absurd hk.symm (Relation.keyed_ne_manyToMany b a r)
  · obtain rfl := Relation.manyToMany.inj hm
    exact congrArg (RelationGroup.mk g.name g.explicit) hends

theorem ends_perm_of_groups {ends : List Endpoint} {keys : List RelationKey} {rs : List Relation}
    (h : List.Forall₂ (fun k r => (k.group ends).relation = .ok r) keys rs) :
    (rs.flatMap Relation.ends).Perm (keys.flatMap fun k => (k.group ends).ends) := by
  induction h with
  | nil => exact .nil
  | cons hr _ ih =>
    obtain ⟨a, b, hg, hp⟩ := RelationGroup.relation_eq_ok_iff.mp hr
    rw [List.flatMap_cons, List.flatMap_cons, hg]
    exact (Relation.ends_of_ofPair hp).append ih

/-! ## Relations in order -/

namespace Position

theorem le_trans {p q r : Position} (h : p.le q = true) (h' : q.le r = true) : p.le r = true := by
  simp only [le, Bool.or_eq_true, Bool.and_eq_true, decide_eq_true_eq, beq_iff_eq] at *
  omega

theorem le_total (p q : Position) : (p.le q || q.le p) = true := by
  simp only [le, Bool.or_eq_true, Bool.and_eq_true, decide_eq_true_eq, beq_iff_eq]
  omega

end Position

namespace Relation

theorem le_trans (r s t : Relation) : r.le s → s.le t → r.le t := Position.le_trans

theorem le_total (r s : Relation) : (r.le s || s.le r) = true := Position.le_total _ _

theorem orderedInsert_append {r : Relation} {before after : List Relation}
    (hbefore : ∀ s ∈ before, (!r.le s) = true) (hafter : ∀ s ∈ after, r.le s = true) :
    (before ++ after).orderedInsert (·.le · = true) r = before ++ r :: after := by
  induction before with
  | nil =>
    cases after with
    | nil => rfl
    | cons s after =>
      rw [List.nil_append, List.orderedInsert_cons, if_pos (hafter s List.mem_cons_self)]
      rfl
  | cons s before ih =>
    obtain ⟨hs, hbefore⟩ := List.forall_mem_cons.mp hbefore
    have hs : ¬ r.le s = true := by simpa using hs
    rw [List.cons_append, List.orderedInsert_cons, if_neg hs, ih hbefore, List.cons_append]

theorem mergeSort_eq_insertionSort (rs : List Relation) :
    rs.mergeSort le = rs.insertionSort (·.le · = true) := by
  induction rs with
  | nil => simp
  | cons r rs ih =>
    obtain ⟨before, after, hsort, hrest, hbefore⟩ := List.mergeSort_cons le_trans le_total r rs
    have hsorted := List.pairwise_mergeSort le_trans le_total (r :: rs)
    rw [hsort] at hsorted
    have hafter : ∀ s ∈ after, r.le s = true :=
      (List.pairwise_cons.mp (List.pairwise_append.mp hsorted).2.1).1
    rw [hsort, List.insertionSort_cons, ← ih, hrest, orderedInsert_append hbefore hafter]

end Relation

/-- The relations that the groups of ends are, in the order of the groups. -/
def GroupRelations (ends : List Endpoint) (rs : List Relation) : Prop :=
  List.Forall₂ (fun k r => (k.group ends).relation = .ok r) (relationKeys ends) rs

namespace DataModel

variable {dm : DataModel}

/-- The relations, or their first fault, in the order in which the keys of the ends are met. -/
theorem relations_eq_mapM {ends : List Endpoint} (h : dm.endpoints = .ok ends) :
    dm.relations = (·.mergeSort Relation.le) <$>
      (relationKeys ends).mapM fun k => (k.group ends).relation := by
  have hg := (Grouping.ofEnds_holds fun e he => ((endpoints_eq_ok h).2 e he).target_name).groups
  rw [relations, h]
  change ((Grouping.ofEnds ends).groups.mapM RelationGroup.relation >>= _) = _
  rw [hg, List.mapM_map]
  rfl

/-- The relations, sorted by a recursion over them. -/
theorem relations_eq_insertionSort (dm : DataModel) : dm.relations = do
    let ends ← dm.endpoints
    let rs ← (Grouping.ofEnds ends).groups.mapM RelationGroup.relation
    return rs.insertionSort (·.le · = true) := by
  unfold relations
  simp only [Relation.mergeSort_eq_insertionSort]

theorem relations_eq_ok_iff {rs : List Relation} :
    dm.relations = .ok rs ↔ ∃ ends unsorted, dm.endpoints = .ok ends ∧
      GroupRelations ends unsorted ∧ rs = unsorted.mergeSort Relation.le := by
  constructor
  · intro h
    obtain ⟨ends, he, -⟩ := bind_eq_ok_iff.mp h
    rw [relations_eq_mapM he] at h
    obtain ⟨unsorted, hu, rfl⟩ := map_eq_ok_iff.mp h
    exact ⟨ends, unsorted, he, mapM_eq_ok_iff.mp hu, rfl⟩
  · rintro ⟨ends, unsorted, he, hu, rfl⟩
    rw [relations_eq_mapM he, mapM_eq_ok_iff.mpr hu]
    rfl

theorem exists_relations_iff :
    (∃ rs, dm.relations = .ok rs) ↔ ∃ ends, dm.endpoints = .ok ends ∧
      ∀ k ∈ relationKeys ends, ∃ r, (k.group ends).relation = .ok r := by
  simp only [relations_eq_ok_iff, ← exists_forall₂_iff, GroupRelations]
  constructor
  · rintro ⟨_, ends, rs, he, hr, -⟩
    exact ⟨ends, he, rs, hr⟩
  · rintro ⟨ends, he, rs, hr⟩
    exact ⟨_, ends, rs, he, hr, rfl⟩

/-- The ends of the relations are those of the data model, each once. -/
theorem relations_ends_perm {rs : List Relation} (h : dm.relations = .ok rs) :
    ∃ ends, dm.endpoints = .ok ends ∧ (rs.flatMap Relation.ends).Perm ends := by
  obtain ⟨ends, unsorted, he, hu, rfl⟩ := relations_eq_ok_iff.mp h
  refine ⟨ends, he, ((List.mergeSort_perm _ _).flatMap_right _).trans ?_⟩
  exact (ends_perm_of_groups hu).trans (flatMap_group_perm ends)

theorem mem_relations_iff {rs : List Relation} (h : dm.relations = .ok rs) {r : Relation} :
    r ∈ rs ↔ ∃ ends, dm.endpoints = .ok ends ∧
      ∃ k ∈ relationKeys ends, (k.group ends).relation = .ok r := by
  obtain ⟨ends, unsorted, he, hu, rfl⟩ := relations_eq_ok_iff.mp h
  rw [List.mem_mergeSort]
  constructor
  · intro hr
    exact ⟨ends, he, exists_of_mem_forall₂ hu hr⟩
  · rintro ⟨ends', he', k, hk, hr⟩
    obtain rfl : ends = ends' := Except.ok.inj (he.symm.trans he')
    obtain ⟨r', hr', h'⟩ := exists_of_mem_forall₂ hu.flip hk
    rwa [Except.ok.inj (hr.symm.trans h')]

/-- A relation is that of the group of its anchor. -/
theorem group_of_mem {rs : List Relation} (h : dm.relations = .ok rs) {r : Relation} (hr : r ∈ rs) :
    ∃ ends, dm.endpoints = .ok ends ∧ (r.anchor.key.group ends).relation = .ok r := by
  obtain ⟨ends, he, k, -, hrel⟩ := (mem_relations_iff h).mp hr
  obtain ⟨a, b, hends, hp⟩ := RelationGroup.relation_eq_ok_iff.mp hrel
  have hm : r.anchor ∈ (k.group ends).ends := by
    rw [hends, ← (Relation.ends_of_ofPair hp).mem_iff]
    exact List.mem_cons_self
  have hkey : r.anchor.key = k := of_decide_eq_true (List.mem_filter.mp hm).2
  exact ⟨ends, he, hkey ▸ hrel⟩

/-- No two relations have the same key. -/
theorem eq_of_key_eq {rs : List Relation} (h : dm.relations = .ok rs) {r s : Relation}
    (hr : r ∈ rs) (hs : s ∈ rs) (hk : r.anchor.key = s.anchor.key) : r = s := by
  obtain ⟨ends, he, hr⟩ := group_of_mem h hr
  obtain ⟨ends', he', hs⟩ := group_of_mem h hs
  obtain rfl : ends = ends' := Except.ok.inj (he.symm.trans he')
  rw [hk] at hr
  exact Except.ok.inj (hr.symm.trans hs)

/-- A relation is that of a foreign key that its anchor holds, or it is between lists. -/
theorem shape_of_mem {rs : List Relation} (h : dm.relations = .ok rs) {r : Relation} (hr : r ∈ rs) :
    KeyedPair r.anchor.owner.isUniqueKey r.anchor.field r.counterpart.field ∧
        r = .keyed r.anchor r.counterpart ∨
      ListPair r.anchor.field r.counterpart.field ∧ ∃ m, r = .manyToMany m := by
  obtain ⟨ends, -, k, -, hrel⟩ := (mem_relations_iff h).mp hr
  obtain ⟨a, b, -, hp⟩ := RelationGroup.relation_eq_ok_iff.mp hrel
  rcases Relation.ofPair_eq_ok_iff.mp hp with ⟨hk, rfl⟩ | ⟨hk, rfl⟩ | ⟨hl, rfl⟩
  · rw [Relation.anchor_keyed, Relation.counterpart_keyed]
    exact .inl ⟨hk, rfl⟩
  · rw [Relation.anchor_keyed, Relation.counterpart_keyed]
    exact .inl ⟨hk, rfl⟩
  · exact .inr ⟨hl, _, rfl⟩

/-- The group of a relation between lists holds its two ends in order. -/
theorem group_of_manyToMany {rs : List Relation} (h : dm.relations = .ok rs) {r : ManyToMany}
    (hr : .manyToMany r ∈ rs) :
    ∃ ends, dm.endpoints = .ok ends ∧
      r.first.key.group ends = ⟨r.name, r.explicit, [r.first, r.second]⟩ := by
  obtain ⟨ends, he, hrel⟩ := group_of_mem h hr
  exact ⟨ends, he, RelationGroup.eq_of_manyToMany hrel⟩

/-- The ends of a relation between lists are lists, and it has the name of the first one. -/
theorem lists_of_manyToMany {rs : List Relation} (h : dm.relations = .ok rs) {r : ManyToMany}
    (hr : .manyToMany r ∈ rs) :
    r.name = r.first.relationName ∧ ListPair r.first.field r.second.field := by
  obtain ⟨ends, -, hg⟩ := group_of_manyToMany h hr
  have hname : r.first.key.name = r.name := congrArg RelationGroup.name hg
  rcases shape_of_mem h hr with ⟨-, hk⟩ | ⟨hl, -⟩
  · exact absurd hk.symm (Relation.keyed_ne_manyToMany _ _ r)
  · exact ⟨hname.symm.trans r.first.key_name, hl⟩

end DataModel

end Dbml
