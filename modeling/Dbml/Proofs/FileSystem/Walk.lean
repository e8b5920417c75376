import Dbml.Proofs.FileSystem.Entries
import Dbml.Proofs.Path
import Dbml.Proofs.Traversal

/-!
# Walks in file systems

A path can lead to one location only (`place`), and where it leads there in a file system, it
does so in every extension of that (`Extends.locate`).
-/

namespace Dbml

/-- The location that a step leads to, if it leads anywhere. -/
def Component.next (l : Location) : Component → Location
  | .root => []
  | .here => l
  | .up => l.tail
  | .normal name => name :: l

namespace FileSystem

variable {fs fs' : FileSystem} {l l' : Location} {p : Path} {c : Component}

/-- The location that a path leads to, if it leads anywhere. -/
def place (fs : FileSystem) (p : Path) : Location := p.steps.foldl Component.next (fs.start p)

theorem requireDirectory_eq_ok_iff {u : Unit} :
    fs.requireDirectory l = .ok u ↔ fs.at? l = some .directory := by
  unfold requireDirectory
  split <;> rename_i h <;> simp [h]

theorem lookUp_eq_ok_iff {name : List Char} {e : Option Entry} :
    fs.lookUp l name = .ok e ↔
      (String.ofList name).utf8ByteSize ≤ longestName ∧ fs.at? (name :: l) = e := by
  unfold lookUp
  split
  · rename_i h
    exact ⟨nofun, fun ⟨hle, _⟩ => absurd h (Nat.not_lt.mpr hle)⟩
  · rename_i h
    rw [Except.ok.injEq]
    exact ⟨fun he => ⟨Nat.not_lt.mp h, he⟩, fun ⟨_, he⟩ => he⟩

/-- A step is taken from a directory, to something that is there if it has a name. -/
theorem step_eq_ok_iff : fs.step l c = .ok l' ↔
    fs.at? l = some .directory ∧ c.next l = l' ∧ ∀ name, c = .normal name →
      (String.ofList name).utf8ByteSize ≤ longestName ∧ (fs.at? (name :: l)).isSome := by
  unfold step
  simp only [bind_eq_ok_iff, requireDirectory_eq_ok_iff, exists_const]
  refine and_congr_right fun _ => ?_
  cases c with
  | root | here | up =>
    change Except.ok _ = _ ↔ _
    rw [Except.ok.injEq]
    exact ⟨fun h => ⟨h, nofun⟩, fun h => h.1⟩
  | normal name =>
    simp only [bind_eq_ok_iff, lookUp_eq_ok_iff, Component.next, Component.normal.injEq,
      forall_eq']
    constructor
    · rintro ⟨e, ⟨hsize, he⟩, h⟩
      cases e with
      | none => cases h
      | some e => exact ⟨Except.ok.inj h, hsize, by rw [he, Option.isSome_some]⟩
    · rintro ⟨rfl, hsize, hsome⟩
      obtain ⟨e, he⟩ := Option.isSome_iff_exists.mp hsome
      exact ⟨some e, ⟨hsize, he⟩, rfl⟩

theorem foldlM_step_eq_foldl {cs : List Component} (h : cs.foldlM fs.step l = .ok l') :
    cs.foldl Component.next l = l' := by
  induction cs generalizing l with
  | nil => exact Except.ok.inj h
  | cons c cs ih =>
    rw [List.foldlM_cons] at h
    obtain ⟨l₁, hstep, hrest⟩ := bind_eq_ok_iff.mp h
    rw [List.foldl_cons, (step_eq_ok_iff.mp hstep).2.1]
    exact ih hrest

theorem locate_eq_ok_iff : fs.locate p = .ok l ↔
    checkPath p = .ok () ∧ p.steps.foldlM fs.step (fs.start p) = .ok l := by
  simp only [locate, bind_eq_ok_iff]
  exact ⟨fun ⟨_, hcheck, h⟩ => ⟨hcheck, h⟩, fun ⟨hcheck, h⟩ => ⟨(), hcheck, h⟩⟩

/-- A path leads to its place, if it leads anywhere. -/
theorem place_of_locate (h : fs.locate p = .ok l) : fs.place p = l :=
  foldlM_step_eq_foldl (locate_eq_ok_iff.mp h).2

theorem find_eq_ok_iff {e : Entry} :
    fs.find p = .ok e ↔ fs.locate p = .ok (fs.place p) ∧ fs.at? (fs.place p) = some e := by
  simp only [find, bind_eq_ok_iff]
  constructor
  · rintro ⟨l, hl, h⟩
    rw [place_of_locate hl]
    split at h
    · rename_i e' he
      exact ⟨hl, he.trans (congrArg some (Except.ok.inj h))⟩
    · cases h
  · rintro ⟨hl, he⟩
    exact ⟨_, hl, by rw [he]; rfl⟩

theorem pathExists_iff :
    fs.pathExists p = true ↔ fs.locate p = .ok (fs.place p) ∧ (fs.at? (fs.place p)).isSome := by
  have hfind : fs.pathExists p = true ↔ ∃ e, fs.find p = .ok e := by
    unfold pathExists
    cases fs.find p <;> simp [Except.toBool]
  rw [hfind]
  simp only [find_eq_ok_iff, exists_and_left, Option.isSome_iff_exists]

theorem isDirectory_iff : fs.isDirectory p = true ↔ fs.find p = .ok .directory := by
  unfold isDirectory
  split <;> simp_all

theorem pathExists_of_find {e : Entry} (h : fs.find p = .ok e) : fs.pathExists p = true := by
  rw [pathExists, h]
  rfl

theorem pathExists_of_isDirectory (h : fs.isDirectory p = true) : fs.pathExists p = true :=
  pathExists_of_find (isDirectory_iff.mp h)

/-! ## Walks in an extension -/

namespace Extends

variable (h : Extends fs fs')
include h

theorem start (p : Path) : fs'.start p = fs.start p := by
  rw [FileSystem.start, FileSystem.start, h.current]

theorem place (p : Path) : fs'.place p = fs.place p := by
  rw [FileSystem.place, FileSystem.place, h.start]

theorem step (hs : fs.step l c = .ok l') : fs'.step l c = .ok l' := by
  obtain ⟨hdir, hnext, hname⟩ := step_eq_ok_iff.mp hs
  exact step_eq_ok_iff.mpr ⟨h.directory l hdir, hnext, fun name hc =>
    ⟨(hname name hc).1, h.isSome_at? (hname name hc).2⟩⟩

theorem foldlM_step {cs : List Component} (hs : cs.foldlM fs.step l = .ok l') :
    cs.foldlM fs'.step l = .ok l' := by
  induction cs generalizing l with
  | nil => exact hs
  | cons c cs ih =>
    rw [List.foldlM_cons] at hs
    obtain ⟨l₁, hstep, hrest⟩ := bind_eq_ok_iff.mp hs
    rw [List.foldlM_cons, h.step hstep]
    exact ih hrest

theorem locate (hl : fs.locate p = .ok l) : fs'.locate p = .ok l := by
  obtain ⟨hcheck, hsteps⟩ := locate_eq_ok_iff.mp hl
  rw [locate_eq_ok_iff, h.start]
  exact ⟨hcheck, h.foldlM_step hsteps⟩

theorem isDirectory (hp : fs.isDirectory p = true) : fs'.isDirectory p = true := by
  obtain ⟨hl, he⟩ := find_eq_ok_iff.mp (isDirectory_iff.mp hp)
  rw [isDirectory_iff, find_eq_ok_iff, h.place]
  exact ⟨h.locate hl, h.directory _ he⟩

theorem pathExists (hp : fs.pathExists p = true) : fs'.pathExists p = true := by
  obtain ⟨hl, hsome⟩ := pathExists_iff.mp hp
  rw [pathExists_iff, h.place]
  exact ⟨h.locate hl, h.isSome_at? hsome⟩

/-- What is found is found again if it is still the same. -/
theorem find {e : Entry} (hf : fs.find p = .ok e)
    (hsame : fs'.at? (fs.place p) = fs.at? (fs.place p)) : fs'.find p = .ok e := by
  obtain ⟨hl, he⟩ := find_eq_ok_iff.mp hf
  rw [find_eq_ok_iff, h.place]
  exact ⟨h.locate hl, hsame.trans he⟩

end Extends

end FileSystem

end Dbml
