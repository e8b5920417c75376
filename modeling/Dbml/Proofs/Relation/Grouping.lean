import Dbml.Relation.Grouping
import Mathlib.Data.List.Nodup
import Mathlib.Data.List.Perm.Basic
import Mathlib.Data.Sym.Sym2

/-!
# What the groups of ends are

Two ends have the same key iff they have the same relation name and join the
same two models, in whatever order (`Endpoint.key_eq_iff`). Placing ends one
after another keeps the groups of all keys met so far, in the order in which
they were met, and an index of where each of them is (`Grouping.Holds`); so in
the end there is one group for each key, with all ends that have it
(`Grouping.ofEnds_holds`), and every end is in one of them
(`flatMap_group_perm`).
-/

namespace Dbml

namespace RelationKey

/-- The name of a relation between the two models that is not given one. -/
def defaultName (k : RelationKey) : String := k.low ++ "To" ++ k.high

/-- All ends with the key, as a group. -/
def group (k : RelationKey) (ends : List Endpoint) : RelationGroup where
  name := k.name
  explicit := k.name ≠ k.defaultName
  ends := ends.filter (·.key = k)

theorem eq_of_pair {k k' : RelationKey} (hn : k.name = k'.name)
    (hp : s(k.low, k.high) = s(k'.low, k'.high)) (h : k.low ≤ k.high) (h' : k'.low ≤ k'.high) :
    k = k' := by
  obtain ⟨n, l, u⟩ := k
  obtain ⟨n', l', u'⟩ := k'
  simp only at hn hp h h'
  obtain rfl := hn
  rcases Sym2.eq_iff.mp hp with ⟨rfl, rfl⟩ | ⟨rfl, rfl⟩
  · rfl
  · rw [String.le_antisymm h h']

end RelationKey

namespace Endpoint

theorem key_name (e : Endpoint) : e.key.name = e.relationName := by
  unfold key
  split <;> rfl

theorem key_defaultName (e : Endpoint) :
    e.key.defaultName = defaultRelationName e.owner.name e.target.name := by
  unfold key defaultRelationName RelationKey.defaultName
  split <;> rfl

theorem key_pair (e : Endpoint) : s(e.key.low, e.key.high) = s(e.owner.name, e.target.name) := by
  unfold key
  split
  · rfl
  · exact Sym2.eq_swap

theorem key_low_le_high (e : Endpoint) : e.key.low ≤ e.key.high := by
  unfold key
  split
  · assumption
  · exact (String.le_total e.owner.name e.target.name).resolve_left ‹_›

theorem key_eq_iff {e e' : Endpoint} :
    e.key = e'.key ↔ e.relationName = e'.relationName ∧
      s(e.owner.name, e.target.name) = s(e'.owner.name, e'.target.name) := by
  rw [← key_name e, ← key_name e', ← key_pair e, ← key_pair e']
  exact ⟨fun h => h ▸ ⟨rfl, rfl⟩, fun ⟨hn, hp⟩ =>
    RelationKey.eq_of_pair hn hp (key_low_le_high e) (key_low_le_high e')⟩

/-- Whether a relation is given a name of its own shows in its key. -/
theorem isExplicit_eq {e : Endpoint} (h : e.target.name = e.field.type) :
    e.isExplicit = decide (e.key.name ≠ e.key.defaultName) := by
  rw [key_name, key_defaultName, h]
  unfold isExplicit RelationField.relationName effectiveName
  rw [h]
  cases e.field.relationName with
  | none => simp [isExplicitName]
  | some name => rfl

end Endpoint

/-- The keys of ends, each once, in the order in which they are met. -/
def relationKeys (ends : List Endpoint) : List RelationKey := (ends.map Endpoint.key).eraseDups

theorem mem_relationKeys {ends : List Endpoint} {k : RelationKey} :
    k ∈ relationKeys ends ↔ ∃ e ∈ ends, e.key = k := by
  rw [relationKeys, List.mem_eraseDups, List.mem_map]

theorem relationKeys_concat (ends : List Endpoint) (e : Endpoint) :
    relationKeys (ends ++ [e]) =
      if e.key ∈ relationKeys ends then relationKeys ends else relationKeys ends ++ [e.key] := by
  have ha : relationKeys (ends ++ [e]) =
      relationKeys ends ++ ([e.key].removeAll (ends.map Endpoint.key)).eraseDups := by
    rw [relationKeys, List.map_append, List.eraseDups_append]
    rfl
  have hm : e.key ∈ relationKeys ends ↔ e.key ∈ ends.map Endpoint.key := List.mem_eraseDups
  by_cases h : e.key ∈ ends.map Endpoint.key
  · rw [if_pos (hm.mpr h), ha, List.removeAll,
      List.filter_eq_nil_iff.mpr (by simpa using h), List.eraseDups_nil, List.append_nil]
  · rw [if_neg (mt hm.mp h), ha, List.removeAll,
      List.filter_eq_self.mpr (by simpa using h)]
    rfl

theorem nodup_relationKeys (ends : List Endpoint) : (relationKeys ends).Nodup := by
  induction ends using List.reverseRecOn with
  | nil => exact .nil
  | append_singleton ends e ih =>
    rw [relationKeys_concat]
    split
    · exact ih
    · rw [← List.concat_eq_append]
      exact ih.concat ‹_›

theorem getElem?_concat_eq_some_iff {α : Type} {l : List α} {x y : α} {i : Nat} :
    (l ++ [x])[i]? = some y ↔ l[i]? = some y ∨ y = x ∧ i = l.length := by
  grind

theorem group_concat (k : RelationKey) (ends : List Endpoint) (e : Endpoint) :
    k.group (ends ++ [e]) = if e.key = k then (k.group ends).add e else k.group ends := by
  unfold RelationKey.group RelationGroup.add
  rw [List.filter_append]
  split
  · rename_i h
    simp [h]
  · rename_i h
    simp [h]

theorem group_start {e : Endpoint} {ends : List Endpoint} (h : e.key ∉ relationKeys ends)
    (ht : e.target.name = e.field.type) : e.key.group (ends ++ [e]) = .start e := by
  have hf : ends.filter (·.key = e.key) = [] := by
    rw [List.filter_eq_nil_iff]
    exact fun e' he' hk => h (mem_relationKeys.mpr ⟨e', he', of_decide_eq_true hk⟩)
  rw [group_concat, if_pos rfl]
  unfold RelationKey.group RelationGroup.add RelationGroup.start
  rw [hf, Endpoint.isExplicit_eq ht, Endpoint.key_name]
  rfl

/-- The ends of the groups of all keys are the ends. -/
theorem flatMap_filter_perm {keys : List RelationKey} (hk : keys.Nodup) (ends : List Endpoint)
    (h : ∀ e ∈ ends, e.key ∈ keys) :
    (keys.flatMap fun k => ends.filter (·.key = k)).Perm ends := by
  induction keys generalizing ends with
  | nil =>
    rw [List.eq_nil_iff_forall_not_mem.mpr fun e he => List.not_mem_nil (h e he)]
    exact .nil
  | cons k keys ih =>
    obtain ⟨hn, hk⟩ := List.nodup_cons.mp hk
    have hr := ih hk (ends.filter fun e => !decide (e.key = k)) fun e he => by
      obtain ⟨he, hne⟩ := List.mem_filter.mp he
      exact (List.mem_cons.mp (h e he)).resolve_left (by simpa using hne)
    have hs : ∀ k' ∈ keys, (ends.filter fun e => !decide (e.key = k)).filter (·.key = k') =
        ends.filter (·.key = k') := by
      intro k' hk'
      rw [List.filter_filter]
      refine List.filter_congr fun e _ => ?_
      by_cases he : e.key = k'
      · simp [he, show k' ≠ k from fun h => hn (h ▸ hk')]
      · simp [he]
    rw [List.flatMap_congr hs] at hr
    rw [List.flatMap_cons]
    exact (hr.append_left _).trans (List.filter_append_perm _ _)

theorem flatMap_group_perm (ends : List Endpoint) :
    ((relationKeys ends).flatMap fun k => (k.group ends).ends).Perm ends :=
  flatMap_filter_perm (nodup_relationKeys ends) ends fun e he =>
    mem_relationKeys.mpr ⟨e, he, rfl⟩

namespace Grouping

/-- Where the ends `ends` have been placed. -/
structure Holds (g : Grouping) (ends : List Endpoint) : Prop where
  groups : g.groups = (relationKeys ends).map (·.group ends)
  index (k : RelationKey) (i : Nat) : g.index.lookup k = some i ↔ (relationKeys ends)[i]? = some k

variable {g : Grouping} {ends : List Endpoint}

theorem Holds.lookup_lt (h : g.Holds ends) {k : RelationKey} {i : Nat}
    (hi : g.index.lookup k = some i) : i < g.groups.length := by
  rw [h.groups, List.length_map]
  exact (List.getElem?_eq_some_iff.mp ((h.index k i).mp hi)).1

theorem Holds.place (h : g.Holds ends) {e : Endpoint} (ht : e.target.name = e.field.type) :
    (g.place e).Holds (ends ++ [e]) := by
  unfold Grouping.place
  split
  · rename_i i hi
    have hk := (h.index e.key i).mp hi
    have hc : relationKeys (ends ++ [e]) = relationKeys ends := by
      rw [relationKeys_concat, if_pos (List.mem_of_getElem? hk)]
    refine ⟨?_, hc ▸ h.index⟩
    rw [hc, h.groups]
    refine List.ext_getElem? fun j => ?_
    rw [List.getElem?_modify, List.getElem?_map, List.getElem?_map]
    rcases hj : (relationKeys ends)[j]? with _ | k
    · rfl
    · have hij : i = j ↔ e.key = k := by
        refine ⟨fun h => Option.some.inj (hk.symm.trans (h ▸ hj)), fun h => ?_⟩
        exact (List.getElem?_inj (List.getElem?_eq_some_iff.mp hk).1 (nodup_relationKeys ends)).mp
          (hk.trans (h ▸ hj.symm))
      simp only [Option.map_some, group_concat, hij]
      split <;> rfl
  · rename_i hi
    have hk : e.key ∉ relationKeys ends := fun hm => by
      obtain ⟨i, hm⟩ := List.mem_iff_getElem?.mp hm
      rw [(h.index e.key i).mpr hm] at hi
      cases hi
    have hc : relationKeys (ends ++ [e]) = relationKeys ends ++ [e.key] := by
      rw [relationKeys_concat, if_neg hk]
    constructor
    · have hg : (relationKeys ends).map (·.group (ends ++ [e])) = g.groups := by
        rw [h.groups]
        refine List.map_congr_left fun k hk' => ?_
        rw [group_concat, if_neg (ne_of_mem_of_not_mem hk' hk).symm]
      rw [hc, List.map_append, hg, List.map_singleton, group_start hk ht]
    · intro k i
      have hl : g.groups.length = (relationKeys ends).length := by rw [h.groups, List.length_map]
      rw [hc, List.lookup_cons, getElem?_concat_eq_some_iff, ← h.index, hl]
      split
      · rename_i he
        obtain rfl := eq_of_beq he
        rw [hi]
        simp [eq_comm]
      · rename_i he
        simp [ne_of_beq_false he]

theorem ofEnds_holds {ends : List Endpoint} (h : ∀ e ∈ ends, e.target.name = e.field.type) :
    (ofEnds ends).Holds ends := by
  induction ends using List.reverseRecOn with
  | nil => exact ⟨rfl, fun k i => by simp [ofEnds, relationKeys]⟩
  | append_singleton ends e ih =>
    rw [ofEnds, List.foldl_append]
    exact (ih fun e' he' => h e' (List.mem_append_left _ he')).place
      (h e (List.mem_append_right _ List.mem_cons_self))

end Grouping

end Dbml
