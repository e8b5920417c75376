import Dbml.Proofs.Schema.UniqueKeys

/-!
# What keys say of rows of data

A row of data has a value in each column, and columns identify rows if no two of these agree on
all of them (`Identifies`). A model admits the rows that each of its keys identifies. Which
columns identify the rows of every table of a model is then a matter of its keys: those that
have all columns of one of them (`guarantees_iff`). A unique key of distinct columns is such a
list (`guarantees_of_nodup`).
-/

namespace Dbml

variable {α : Type} {columns key : List String} {m : Model}

/-- Whether no two of the rows agree on all of the columns. -/
def Identifies (columns : List String) (rows : List (String → α)) : Prop :=
  rows.Pairwise fun r s => ¬ ∀ c ∈ columns, r c = s c

instance [DecidableEq α] (columns : List String) (rows : List (String → α)) :
    Decidable (Identifies columns rows) :=
  inferInstanceAs (Decidable (rows.Pairwise _))

theorem Identifies.of_subset {rows : List (String → α)} (h : Identifies key rows)
    (hs : key ⊆ columns) : Identifies columns rows :=
  h.imp fun hne heq => hne fun c hc => heq c (hs hc)

namespace Model

/-- All keys of a model: the fields that are unique by themselves, and the keys that it declares
as lists of columns. -/
def keys (m : Model) : List (List String) :=
  (m.fields.filter fun f => f.isUnique || f.isId).map ([·.name]) ++ m.declaredKeys

/-- Whether each key of the model identifies the rows. -/
def Admits (m : Model) (rows : List (String → α)) : Prop := ∀ key ∈ m.keys, Identifies key rows

instance [DecidableEq α] (m : Model) (rows : List (String → α)) : Decidable (m.Admits rows) :=
  List.decidableBAll (fun key => Identifies key rows) m.keys

/-- Whether columns identify the rows of every table that the model admits. -/
def Guarantees (m : Model) (columns : List String) : Prop :=
  ∀ (α : Type) (rows : List (String → α)), m.Admits rows → Identifies columns rows

/-- Two rows that agree on `columns` and nowhere else. -/
def twins (columns : List String) : List (String → Bool) := [fun _ => true, (· ∈ columns)]

theorem identifies_twins : Identifies key (twins columns) ↔ ¬ key ⊆ columns := by
  simp [Identifies, twins, List.subset_def]

/-- Columns identify the rows of every table iff they have all columns of a key. -/
theorem guarantees_iff : m.Guarantees columns ↔ ∃ key ∈ m.keys, key ⊆ columns := by
  constructor
  · intro h
    by_contra hnone
    -- the rows that agree exactly on the columns break no key, as every key has another column
    have hadmits : m.Admits (twins columns) := fun key hk =>
      identifies_twins.mpr fun hs => hnone ⟨key, hk, hs⟩
    exact identifies_twins.mp (h Bool _ hadmits) (List.Subset.refl columns)
  · rintro ⟨key, hk, hs⟩ α rows hrows
    exact (hrows key hk).of_subset hs

theorem mem_keys_of_field {f : Field} (hf : f ∈ m.fields) (h : (f.isUnique || f.isId) = true) :
    [f.name] ∈ m.keys :=
  List.mem_append_left _ (List.mem_map_of_mem (List.mem_filter.mpr ⟨hf, h⟩))

theorem mem_keys_of_declared (h : key ∈ m.declaredKeys) : key ∈ m.keys :=
  List.mem_append_right _ h

/-- A unique key without repetitions has all columns of a key. A list that names a column twice
may match a declared key of which it lacks another one. -/
theorem exists_key_of_isUniqueKey (h : m.isUniqueKey columns = true) (hn : columns.Nodup) :
    ∃ key ∈ m.keys, key ⊆ columns := by
  have hdeclared (h : isUniqueKey.declared m columns = true) : ∃ key ∈ m.keys, key ⊆ columns := by
    obtain ⟨key, hk, hmatch⟩ := declared_iff.mp h
    exact ⟨key, mem_keys_of_declared hk, ((keyMatches_iff_perm hn).mp hmatch).symm.subset⟩
  unfold isUniqueKey at h
  split at h
  · split at h
    · rename_i single f hf
      obtain ⟨hmem, rfl⟩ := mem_of_field? hf
      exact ⟨[f.name], mem_keys_of_field hmem h, List.Subset.refl _⟩
    · exact hdeclared h
  · exact hdeclared h

theorem guarantees_of_nodup (h : m.isUniqueKey columns = true) (hn : columns.Nodup) :
    m.Guarantees columns :=
  guarantees_iff.mpr (exists_key_of_isUniqueKey h hn)

end Model

end Dbml
