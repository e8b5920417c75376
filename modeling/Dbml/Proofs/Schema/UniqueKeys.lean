import Dbml.Schema.Model
import Mathlib.Data.List.Perm.Subperm

/-!
# Which columns are a unique key

A model declares keys of several columns (`Model.declaredKeys`). Two or more distinct columns are
a unique key iff they are the columns of one of these, in whatever order
(`isUniqueKey_iff_perm`): a declared key that has more columns, or fewer, does not make them one.
-/

namespace Dbml

namespace Model

/-- The keys that a model declares as lists of columns, the primary one first. -/
def declaredKeys (m : Model) : List (List String) := m.primaryKey.toList ++ m.uniqueFields

/-- Whether two models declare the same keys, up to the order of the keys and of the columns in
each of them. -/
structure SameKeys (m m' : Model) : Prop where
  left : ∀ key ∈ m.declaredKeys, ∃ key' ∈ m'.declaredKeys, key.Perm key'
  right : ∀ key ∈ m'.declaredKeys, ∃ key' ∈ m.declaredKeys, key.Perm key'

/-- The model without a key. -/
def withoutKey (m : Model) (key : List String) : Model :=
  { m with primaryKey := m.primaryKey.filter (· ≠ key)
           uniqueFields := m.uniqueFields.filter (· ≠ key) }

variable {m m' : Model} {columns key : List String}

theorem mem_of_field? {name : String} {f : Field} (h : m.field? name = some f) :
    f ∈ m.fields ∧ f.name = name := by
  rw [field?] at h
  have hname := List.find?_some h
  exact ⟨List.mem_of_find?_eq_some h, eq_of_beq hname⟩

theorem mem_declaredKeys :
    key ∈ m.declaredKeys ↔ m.primaryKey = some key ∨ key ∈ m.uniqueFields := by
  rw [declaredKeys, List.mem_append, Option.mem_toList]

theorem mem_declaredKeys_withoutKey {key' : List String} :
    key' ∈ (m.withoutKey key).declaredKeys ↔ key' ∈ m.declaredKeys ∧ key' ≠ key := by
  simp only [mem_declaredKeys, withoutKey, Option.filter_eq_some_iff, List.mem_filter,
    decide_eq_true_eq, or_and_right]

/-! ## Keys that match -/

theorem keyMatches_iff :
    keyMatches columns key = true ↔ key.length = columns.length ∧ columns ⊆ key := by
  simp [keyMatches, List.subset_def]

/-- As many columns as distinct ones, each of them among these, are these. -/
theorem keyMatches_iff_perm (hn : columns.Nodup) :
    keyMatches columns key = true ↔ columns.Perm key := by
  rw [keyMatches_iff]
  constructor
  · rintro ⟨hl, hs⟩
    exact (List.subperm_of_subset hn hs).perm_of_length_le (Nat.le_of_eq hl)
  · intro hp
    exact ⟨hp.length_eq.symm, hp.subset⟩

theorem declared_iff :
    isUniqueKey.declared m columns = true ↔
      ∃ key ∈ m.declaredKeys, keyMatches columns key = true := by
  simp only [isUniqueKey.declared, mem_declaredKeys, Bool.or_eq_true, List.any_eq_true,
    Option.any_eq_true, or_and_right, exists_or]

/-- Other lists than those of a single column are unique only if declared so. -/
theorem isUniqueKey_eq_declared (h : columns.length ≠ 1) :
    m.isUniqueKey columns = isUniqueKey.declared m columns := by
  unfold isUniqueKey
  split
  · exact absurd rfl h
  · rfl

theorem isUniqueKey_iff (hn : columns.Nodup) (hl : 2 ≤ columns.length) :
    m.isUniqueKey columns = true ↔ ∃ key ∈ m.declaredKeys, columns.Perm key := by
  rw [isUniqueKey_eq_declared (by omega), declared_iff]
  simp only [keyMatches_iff_perm hn]

/-- Two or more distinct columns are a unique key iff they are the columns of a declared key in
some order. In whatever order they are given, and in whatever order the keys and their
columns are declared, the answer is the same; and it is the same without a key that has all
of them and others, or some of them only. -/
theorem isUniqueKey_iff_perm (m : Model) (hn : columns.Nodup) (hl : 2 ≤ columns.length) :
    (m.isUniqueKey columns = true ↔ ∃ key, (m.primaryKey = some key ∨ key ∈ m.uniqueFields) ∧
      columns.Perm key) ∧
    (∀ columns', columns.Perm columns' → m.isUniqueKey columns' = m.isUniqueKey columns) ∧
    (∀ m' : Model, m.SameKeys m' → m'.isUniqueKey columns = m.isUniqueKey columns) ∧
    ∀ key, columns ⊆ key ∧ ¬ key ⊆ columns ∨ key ⊆ columns ∧ ¬ columns ⊆ key →
      (m.withoutKey key).isUniqueKey columns = m.isUniqueKey columns := by
  refine ⟨?perm, fun columns' hp => ?columns, fun m' hm => ?keys, fun key hk => ?other⟩
  case perm => simp only [isUniqueKey_iff hn hl, mem_declaredKeys]
  case columns =>
    rw [Bool.eq_iff_iff, isUniqueKey_iff hn hl,
      isUniqueKey_iff (hp.nodup_iff.mp hn) (hp.length_eq ▸ hl)]
    exact exists_congr fun key => and_congr_right fun _ => ⟨hp.trans, hp.symm.trans⟩
  case keys =>
    rw [Bool.eq_iff_iff, isUniqueKey_iff hn hl, isUniqueKey_iff hn hl]
    constructor
    · rintro ⟨key', hk', hp⟩
      obtain ⟨key, hk, hkk⟩ := hm.right key' hk'
      exact ⟨key, hk, hp.trans hkk⟩
    · rintro ⟨key, hk, hp⟩
      obtain ⟨key', hk', hkk⟩ := hm.left key hk
      exact ⟨key', hk', hp.trans hkk⟩
  case other =>
    have hne {key' : List String} (hp : columns.Perm key') : key' ≠ key := by
      rintro rfl
      rcases hk with ⟨-, hk⟩ | ⟨-, hk⟩
      · exact hk hp.symm.subset
      · exact hk hp.subset
    rw [Bool.eq_iff_iff, isUniqueKey_iff hn hl, isUniqueKey_iff hn hl]
    refine exists_congr fun key' => ?_
    rw [mem_declaredKeys_withoutKey, and_right_comm, and_iff_left_of_imp fun h => hne h.2]

end Model

/-! ## A model with several keys -/

namespace Membership

def column (name : String) : Field := { name, kind := .scalar, type := "Int" }

def membership : Model where
  name := "Membership"
  fields := [column "teamId", column "userId", column "role"]
  primaryKey := some ["teamId", "userId"]
  uniqueFields := [["userId", "role"], ["teamId", "role", "userId"]]

theorem uniqueKeys_membership :
    ["role", "userId"].Nodup ∧ membership.isUniqueKey ["role", "userId"] = true ∧
      membership.isUniqueKey ["userId", "role"] = true ∧
      (membership.withoutKey ["teamId", "role", "userId"]).isUniqueKey ["role", "teamId"] =
        membership.isUniqueKey ["role", "teamId"] := by
  have hn : ["role", "userId"].Nodup := by decide
  have hn' : ["role", "teamId"].Nodup := by decide
  obtain ⟨hiff, hpermuted, -⟩ := Model.isUniqueKey_iff_perm membership hn (by decide)
  obtain ⟨-, -, -, hother⟩ := Model.isUniqueKey_iff_perm membership hn' (by decide)
  have hunique : membership.isUniqueKey ["role", "userId"] = true :=
    hiff.mpr ⟨["userId", "role"], .inr List.mem_cons_self, .swap _ _ []⟩
  refine ⟨hn, hunique, (hpermuted _ (.swap _ _ [])).trans hunique, hother _ (.inl ?_)⟩
  decide

end Membership

end Dbml
