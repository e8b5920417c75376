import Dbml.FileSystem
import Mathlib.Data.List.Basic

/-!
# Entries of file systems

What is at a location after an entry was put at another (`at?_set`), and that every entry lies in
a directory (`parent_of_isSome`). A file system extends
another if no entry is gone and no file has become a directory or the reverse (`Extends`):
what files hold is the only thing that may differ in what was there before.
-/

namespace Dbml.FileSystem

variable {fs fs' fs'' : FileSystem} {l : Location} {e : Entry} {c : Content}

@[simp] theorem at?_root (fs : FileSystem) : fs.at? [] = some .directory := rfl

/-- Every entry of a file system lies in a directory. -/
theorem parent_of_isSome {name : List Char} (h : (fs.at? (name :: l)).isSome) :
    fs.at? l = some .directory := by
  obtain ⟨e, he⟩ := Option.isSome_iff_exists.mp h
  rw [at?, entryAt?, if_neg (List.cons_ne_nil _ _)] at he
  obtain ⟨before, after, hentries, -⟩ := List.lookup_eq_some_iff.mp he
  have hmem : (name :: l, e) ∈ fs.entries :=
    hentries ▸ List.mem_append_right before List.mem_cons_self
  exact fs.tree _ hmem

theorem at?_set (h : fs.CanHold l e) (l' : Location) :
    (fs.set l e).at? l' = if l' = l then some e else fs.at? l' := by
  rw [set, dif_pos h]
  exact entryAt?_setIn h.ne_nil e fs.entries l'

theorem at?_set_self (h : fs.CanHold l e) : (fs.set l e).at? l = some e := by
  rw [at?_set h, if_pos rfl]

@[simp] theorem current_set (fs : FileSystem) (l : Location) (e : Entry) :
    (fs.set l e).current = fs.current := by
  unfold set
  split <;> rfl

/-- An entry that is put where it is changes nothing. -/
theorem set_eq_self (h : fs.at? l = some e) : fs.set l e = fs := by
  have hentries (entries : List (Location × Entry)) (h : entries.lookup l = some e) :
      setIn l e entries = entries := by
    induction entries with
    | nil => cases h
    | cons x entries ih =>
      obtain ⟨k, e'⟩ := x
      by_cases hk : k = l
      · subst hk
        rw [List.lookup_cons_self] at h
        rw [setIn, if_pos rfl, Option.some.inj h]
      · rw [List.lookup_cons, beq_false_of_ne (Ne.symm hk)] at h
        rw [setIn, if_neg hk, ih h]
  unfold set
  split
  · rename_i hhold
    rw [at?, entryAt?, if_neg hhold.ne_nil] at h
    exact FileSystem.ext (hentries fs.entries h) rfl
  · rfl

/-! ## Files -/

/-- What the file at a location holds, if there is one. -/
def file? (fs : FileSystem) (l : Location) : Option Content :=
  match fs.at? l with
  | some (.file c) => some c
  | _ => none

theorem file?_eq_some_iff : fs.file? l = some c ↔ fs.at? l = some (.file c) := by
  unfold file?
  split
  · rename_i c' h
    rw [h, Option.some.injEq, Option.some.injEq, Entry.file.injEq]
  · rename_i h
    exact ⟨nofun, fun hc => absurd hc (h c)⟩

theorem file?_congr (h : fs'.at? l = fs.at? l) : fs'.file? l = fs.file? l := by
  rw [file?, file?, h]

theorem file?_set_directory (hhold : fs.CanHold l .directory) (h : fs.file? l = none)
    (l' : Location) : (fs.set l .directory).file? l' = fs.file? l' := by
  by_cases hl' : l' = l
  · subst hl'
    rw [h, file?, at?_set_self hhold]
  · exact file?_congr (by rw [at?_set hhold, if_neg hl'])

theorem file?_set_file (h : fs.CanHold l (.file c)) (l' : Location) :
    (fs.set l (.file c)).file? l' = if l' = l then some c else fs.file? l' := by
  by_cases hl' : l' = l
  · subst hl'
    rw [if_pos rfl, file?_eq_some_iff, at?_set_self h]
  · rw [if_neg hl']
    exact file?_congr (by rw [at?_set h, if_neg hl'])

/-! ## Extensions -/

/-- Whatever was there is there, and it is a file if it was one. -/
structure Extends (fs fs' : FileSystem) : Prop where
  current : fs'.current = fs.current
  directory : ∀ l, fs.at? l = some .directory → fs'.at? l = some .directory
  file : ∀ l, (fs.file? l).isSome → (fs'.file? l).isSome

namespace Extends

theorem refl (fs : FileSystem) : Extends fs fs := ⟨rfl, fun _ => id, fun _ => id⟩

theorem trans (h : Extends fs fs') (h' : Extends fs' fs'') : Extends fs fs'' where
  current := h'.current.trans h.current
  directory l hl := h'.directory l (h.directory l hl)
  file l hl := h'.file l (h.file l hl)

theorem isSome_at? (h : Extends fs fs') (hl : (fs.at? l).isSome) : (fs'.at? l).isSome := by
  obtain ⟨e, he⟩ := Option.isSome_iff_exists.mp hl
  cases e with
  | directory => rw [h.directory l he, Option.isSome_some]
  | file c =>
    have hfile : (fs.file? l).isSome := by
      rw [file?_eq_some_iff.mpr he, Option.isSome_some]
    obtain ⟨c', hc'⟩ := Option.isSome_iff_exists.mp (h.file l hfile)
    rw [file?_eq_some_iff.mp hc', Option.isSome_some]

end Extends

/-- A file is put where no directory is. -/
theorem extends_set_file (h : fs.CanHold l (.file c)) : Extends fs (fs.set l (.file c)) where
  current := current_set ..
  directory l' hl' := by
    have hne : l' ≠ l := fun he => nomatch h.keeps (he ▸ hl')
    rw [at?_set h, if_neg hne, hl']
  file l' hl' := by
    rw [file?_set_file h]
    split
    · exact Option.isSome_some
    · exact hl'

/-- A directory may be put where nothing is. -/
theorem extends_set_directory (hhold : fs.CanHold l .directory) (h : fs.at? l = none) :
    Extends fs (fs.set l .directory) where
  current := current_set ..
  directory l' hl' := by
    have hne : l' ≠ l := fun he => Option.some_ne_none _ (hl'.symm.trans (he ▸ h))
    rw [at?_set hhold, if_neg hne, hl']
  file l' hl' := by
    have hnone : fs.file? l = none := by rw [file?, h]
    rwa [file?_set_directory hhold hnone]

end Dbml.FileSystem
