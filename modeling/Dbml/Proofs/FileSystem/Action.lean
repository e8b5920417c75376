import Dbml.Proofs.FileSystem.Change

/-!
# Actions on file systems

What an action answers on a file system, and what it leaves (`run`), step by step. Making the
directories that lead to a path changes no file (`addsDirectories_createDirectories`), and where
that succeeds there is a directory, or none was wanted (`isDirectory_createDirectories`).
-/

namespace Dbml.FileSystem

variable {ε ε' α β : Type} {fs fs' : FileSystem}

/-- What an action answers on a file system, and what it leaves. -/
def run (fs : FileSystem) (x : ExceptT ε Action α) : Except ε α × FileSystem :=
  StateT.run (ExceptT.run x) fs

@[simp] theorem run_pure (a : α) : fs.run (pure a : ExceptT ε Action α) = (.ok a, fs) := rfl

@[simp] theorem run_throw (e : ε) : fs.run (throw e : ExceptT ε Action α) = (.error e, fs) := rfl

theorem run_bind (x : ExceptT ε Action α) (f : α → ExceptT ε Action β) :
    fs.run (x >>= f) = match fs.run x with
      | (.ok a, fs') => fs'.run (f a)
      | (.error e, fs') => (.error e, fs') := by
  simp only [run, ExceptT.run_bind, StateT.run_bind]
  rcases StateT.run (ExceptT.run x) fs with ⟨r, fs'⟩
  cases r <;> rfl

theorem run_tryCatch (x : ExceptT ε Action α) (handle : ε → ExceptT ε Action α) :
    fs.run (tryCatch x handle) = match fs.run x with
      | (.ok a, fs') => (.ok a, fs')
      | (.error e, fs') => fs'.run (handle e) := by
  change StateT.run (ExceptT.run (ExceptT.tryCatch x handle)) fs = _
  simp only [run, ExceptT.tryCatch, ExceptT.run_mk, StateT.run_bind]
  change (StateT.run (ExceptT.run x) fs >>= _) = _
  rcases StateT.run (ExceptT.run x) fs with ⟨r, fs'⟩
  cases r <;> rfl

/-- The ways in which one action after another ends. -/
theorem of_run_bind {x : ExceptT ε Action α} {f : α → ExceptT ε Action β} {r : Except ε β}
    (h : fs.run (x >>= f) = (r, fs')) :
    (∃ e, fs.run x = (.error e, fs') ∧ r = .error e) ∨
      ∃ a fs₁, fs.run x = (.ok a, fs₁) ∧ fs₁.run (f a) = (r, fs') := by
  rw [run_bind] at h
  rcases hx : fs.run x with ⟨r', fs₁⟩
  rw [hx] at h
  cases r' with
  | error e =>
    obtain ⟨rfl, rfl⟩ := Prod.mk.inj h
    exact .inl ⟨e, rfl, rfl⟩
  | ok a => exact .inr ⟨a, fs₁, rfl, h⟩

/-- The ways in which an action that handles its errors ends. -/
theorem of_run_tryCatch {x : ExceptT ε Action α} {handle : ε → ExceptT ε Action α}
    {r : Except ε α} (h : fs.run (tryCatch x handle) = (r, fs')) :
    (∃ a, fs.run x = (.ok a, fs') ∧ r = .ok a) ∨
      ∃ e fs₁, fs.run x = (.error e, fs₁) ∧ fs₁.run (handle e) = (r, fs') := by
  rw [run_tryCatch] at h
  rcases hx : fs.run x with ⟨r', fs₁⟩
  rw [hx] at h
  cases r' with
  | ok a =>
    obtain ⟨rfl, rfl⟩ := Prod.mk.inj h
    exact .inl ⟨a, rfl, rfl⟩
  | error e => exact .inr ⟨e, fs₁, rfl, h⟩

@[simp] theorem run_adapt (f : ε → ε') (x : ExceptT ε Action α) :
    fs.run (x.adapt f) = ((fs.run x).1.mapError f, (fs.run x).2) := rfl

@[simp] theorem run_ofExcept (r : Except ε α) : fs.run (ofExcept r) = (r, fs) := by
  cases r <;> rfl

@[simp] theorem run_pathExists (p : Path) :
    fs.run (liftM (m := Action) (ReadsFiles.pathExists p) : ExceptT ε Action Bool) =
      (.ok (fs.pathExists p), fs) := rfl

@[simp] theorem run_isDirectory (p : Path) :
    fs.run (liftM (m := Action) (ReadsFiles.isDirectory p) : ExceptT ε Action Bool) =
      (.ok (fs.isDirectory p), fs) := rfl

@[simp] theorem run_readText (p : Path) :
    fs.run (ReadsFiles.readText (m := Action) p) = (fs.readText p, fs) := rfl

theorem run_change (f : FileSystem → Except FileError FileSystem) :
    fs.run (change f) = match f fs with
      | .ok fs' => (.ok (), fs')
      | .error e => (.error e, fs) := rfl

/-! ## Directories -/

/-- Only directories are made: whatever was there still is, and no file has changed. -/
structure AddsDirectories (fs fs' : FileSystem) : Prop where
  extension : Extends fs fs'
  files : fs'.file? = fs.file?

theorem AddsDirectories.refl (fs : FileSystem) : AddsDirectories fs fs := ⟨.refl fs, rfl⟩

theorem AddsDirectories.trans {fs'' : FileSystem} (h : AddsDirectories fs fs')
    (h' : AddsDirectories fs' fs'') : AddsDirectories fs fs'' :=
  ⟨h.extension.trans h'.extension, h'.files.trans h.files⟩

/-- Whether an action makes only directories and, where it succeeds, the path leads to one. -/
def MakesDirectory (p : Path) (x : ExceptT FileError Action Unit) : Prop :=
  ∀ fs r fs', fs.run x = (r, fs') →
    AddsDirectories fs fs' ∧ (r = .ok () → fs'.isDirectory p = true)

theorem makesDirectory_createDirectory (p : Path) :
    MakesDirectory p (WritesFiles.createDirectory p) := by
  intro fs r fs' h
  change fs.run (change (·.createDirectory p)) = _ at h
  rw [run_change] at h
  cases hp : fs.createDirectory p with
  | error e =>
    rw [hp] at h
    obtain ⟨rfl, rfl⟩ := Prod.mk.inj h
    exact ⟨.refl fs, nofun⟩
  | ok fs₁ =>
    rw [hp] at h
    obtain ⟨rfl, rfl⟩ := Prod.mk.inj h
    obtain ⟨hext, hfiles, hdir⟩ := createDirectory_eq_ok hp
    exact ⟨⟨hext, hfiles⟩, fun _ => hdir⟩

theorem makesDirectory_ensureDirectory (p : Path) : MakesDirectory p (ensureDirectory p) := by
  intro fs r fs' h
  rcases of_run_tryCatch h with ⟨u, hx, rfl⟩ | ⟨e, fs₁, hx, h⟩
  · exact makesDirectory_createDirectory p fs _ fs' hx
  · obtain ⟨hadds, -⟩ := makesDirectory_createDirectory p fs _ fs₁ hx
    rw [run_bind, run_isDirectory] at h
    cases hp : fs₁.isDirectory p with
    | false =>
      rw [hp] at h
      obtain ⟨rfl, rfl⟩ := Prod.mk.inj h
      exact ⟨hadds, nofun⟩
    | true =>
      rw [hp] at h
      obtain ⟨rfl, rfl⟩ := Prod.mk.inj h
      exact ⟨hadds, fun _ => hp⟩

/-- Of some directories the first is made, whichever of the others are missing. -/
theorem run_createDirectoriesOf {ps : List Path} {r : Except FileError Unit}
    (h : fs.run (createDirectoriesOf ps) = (r, fs')) :
    AddsDirectories fs fs' ∧ (r = .ok () → ∀ p ∈ ps.head?, fs'.isDirectory p = true) := by
  induction ps generalizing fs fs' r with
  | nil =>
    obtain ⟨rfl, rfl⟩ := Prod.mk.inj h
    exact ⟨.refl fs, nofun⟩
  | cons p outer ih =>
    simp only [List.head?_cons, Option.mem_def, Option.some.injEq, forall_eq']
    rcases of_run_tryCatch h with ⟨u, hx, rfl⟩ | ⟨e, fs₁, hx, h⟩
    · exact makesDirectory_createDirectory p fs _ fs' hx
    · obtain ⟨hadds, -⟩ := makesDirectory_createDirectory p fs _ fs₁ hx
      by_cases he : e = .notFound
      · rw [if_pos he] at h
        rcases of_run_bind h with ⟨e', houter, rfl⟩ | ⟨u, fs₂, houter, h⟩
        · exact ⟨hadds.trans (ih houter).1, nofun⟩
        · obtain ⟨hensure, hp⟩ := makesDirectory_ensureDirectory p fs₂ _ fs' h
          exact ⟨(hadds.trans (ih houter).1).trans hensure, hp⟩
      · rw [if_neg he] at h
        obtain ⟨hensure, hp⟩ := makesDirectory_ensureDirectory p fs₁ _ fs' h
        exact ⟨hadds.trans hensure, hp⟩

/-- Making the directories of a path changes no file. -/
theorem addsDirectories_createDirectories {p : Path} {r : Except FileError Unit}
    (h : fs.run (createDirectories p) = (r, fs')) : AddsDirectories fs fs' :=
  (run_createDirectoriesOf h).1

/-- Where directories could be made, the path leads to one, or none was wanted. -/
theorem isDirectory_createDirectories {p : Path}
    (h : fs.run (createDirectories p) = (.ok (), fs')) :
    fs'.isDirectory p = true ∨ ∀ fs : FileSystem,
      fs.run (createDirectories p) = (.ok (), fs) := by
  have hhead : p.directories = [] ∨ p.directories.head? = some p := by
    unfold Path.directories
    split
    · exact .inl rfl
    · split
      · exact .inl rfl
      · exact .inr rfl
  rcases hhead with hnil | hhead
  · refine .inr fun fs => ?_
    rw [createDirectories, hnil]
    rfl
  · exact .inl ((run_createDirectoriesOf h).2 rfl p hhead)

end Dbml.FileSystem
