import Dbml.Load
import Dbml.Proofs.FileSystem.Action
import Dbml.Proofs.Path

/-!
# Detected formats

The last name in a path tells the format of a file, from whatever path it is taken
(`FileFormat.ofPath?_join`). So the path in a configuration tells how the schema description of
a project is loaded: as if its format were given, or not at all (`format_detected`). In the
latter case no text is read. That is said of programs that take notes of the texts that they read
(`FileSystem.NotedAction`), and otherwise do what they do without notes (`FileSystem.AnswersAs`).
-/

namespace Dbml

/-! ## Notes of reading -/

namespace FileSystem

variable {ε ε' α β : Type} {fs : FileSystem} {noted : List Path}

/-- What a program does with the file system that it finds, with a note of the path to each
text that it reads, the last one first. -/
abbrev NotedAction := StateT (List Path) Action

instance : ReadsFiles NotedAction where
  pathExists p := StateT.lift (ReadsFiles.pathExists p)
  isDirectory p := StateT.lift (ReadsFiles.isDirectory p)
  readText p := ExceptT.mk do
    modify (p :: ·)
    StateT.lift (ReadsFiles.readText (m := Action) p).run

/-- What a program answers on a file system, its notes before those that there were, and what it
leaves. -/
def runNoted (fs : FileSystem) (noted : List Path) (x : ExceptT ε NotedAction α) :
    (Except ε α × List Path) × FileSystem :=
  StateT.run (StateT.run (ExceptT.run x) noted) fs

/-- The paths to the texts that a program reads, the last one first. -/
def textsRead (fs : FileSystem) (x : ExceptT ε NotedAction α) : List Path := (fs.runNoted [] x).1.2

@[simp] theorem runNoted_throw (e : ε) :
    fs.runNoted noted (throw e : ExceptT ε NotedAction α) = ((.error e, noted), fs) := rfl

theorem runNoted_bind (x : ExceptT ε NotedAction α) (f : α → ExceptT ε NotedAction β) :
    fs.runNoted noted (x >>= f) = match fs.runNoted noted x with
      | ((.ok a, noted'), fs') => fs'.runNoted noted' (f a)
      | ((.error e, noted'), fs') => ((.error e, noted'), fs') := by
  simp only [runNoted, ExceptT.run_bind, StateT.run_bind]
  show (StateT.run (StateT.run (ExceptT.run x) noted) fs >>= _) = _
  rcases StateT.run (StateT.run (ExceptT.run x) noted) fs with ⟨⟨r, noted'⟩, fs'⟩
  cases r <;> rfl

@[simp] theorem runNoted_adapt (f : ε → ε') (x : ExceptT ε NotedAction α) :
    fs.runNoted noted (x.adapt f) =
      (((fs.runNoted noted x).1.1.mapError f, (fs.runNoted noted x).1.2),
        (fs.runNoted noted x).2) := rfl

@[simp] theorem runNoted_ofExcept (r : Except ε α) :
    fs.runNoted noted (ofExcept r) = ((r, noted), fs) := by
  cases r <;> rfl

@[simp] theorem runNoted_pathExists (p : Path) :
    fs.runNoted noted (liftM (m := NotedAction) (ReadsFiles.pathExists p) :
      ExceptT ε NotedAction Bool) = ((.ok (fs.pathExists p), noted), fs) := rfl

@[simp] theorem runNoted_readText (p : Path) :
    fs.runNoted noted (ReadsFiles.readText (m := NotedAction) p) =
      ((fs.readText p, p :: noted), fs) := rfl

/-- Whether a program that takes notes answers what another does that takes none, and leaves the
same. -/
def AnswersAs (x : ExceptT ε NotedAction α) (y : ExceptT ε Action α) : Prop :=
  ∀ (fs : FileSystem) (noted : List Path),
    ((fs.runNoted noted x).1.1, (fs.runNoted noted x).2) = fs.run y

namespace AnswersAs

theorem throw (e : ε) : AnswersAs (throw e : ExceptT ε NotedAction α) (throw e) := fun _ _ => rfl

theorem ofExcept (r : Except ε α) :
    AnswersAs (ofExcept r : ExceptT ε NotedAction α) (ofExcept r) := by
  intro fs noted
  rw [runNoted_ofExcept, run_ofExcept]

theorem bind {x : ExceptT ε NotedAction α} {y : ExceptT ε Action α}
    {f : α → ExceptT ε NotedAction β} {g : α → ExceptT ε Action β} (hx : AnswersAs x y)
    (hf : ∀ a, AnswersAs (f a) (g a)) : AnswersAs (x >>= f) (y >>= g) := by
  intro fs noted
  rw [runNoted_bind, run_bind, ← hx fs noted]
  rcases fs.runNoted noted x with ⟨⟨r, noted'⟩, fs'⟩
  cases r with
  | error e => rfl
  | ok a => exact hf a fs' noted'

theorem adapt {x : ExceptT ε NotedAction α} {y : ExceptT ε Action α} (f : ε → ε')
    (h : AnswersAs x y) : AnswersAs (x.adapt f) (y.adapt f) := by
  intro fs noted
  rw [run_adapt, ← h fs noted, runNoted_adapt]

theorem pathExists (p : Path) :
    AnswersAs (liftM (m := NotedAction) (ReadsFiles.pathExists p) : ExceptT ε NotedAction Bool)
      (liftM (m := Action) (ReadsFiles.pathExists p)) := fun _ _ => rfl

theorem readText (p : Path) :
    AnswersAs (ReadsFiles.readText (m := NotedAction) p) (ReadsFiles.readText (m := Action) p) :=
  fun _ _ => rfl

end AnswersAs

end FileSystem

open FileSystem

variable {p : Path} {name : List Char}

theorem answersAs_loadDataModelAs (p : Path) (format : FileFormat) :
    AnswersAs (loadDataModelAs p format) (loadDataModelAs p format) :=
  .bind (.adapt _ (.readText p)) fun _ => .ofExcept _

theorem answersAs_loadDataModel (p : Path) : AnswersAs (loadDataModel p) (loadDataModel p) := by
  unfold loadDataModel
  split
  · exact answersAs_loadDataModelAs p _
  · exact .throw _

theorem answersAs_loadProjectDataModel (config : Config) (root : Option Path)
    (format : Option FileFormat) :
    AnswersAs (loadProjectDataModel config root format) (loadProjectDataModel config root format) := by
  refine .bind (.pathExists _) fun b => ?_
  cases format with
  | none =>
    have hload := answersAs_loadDataModel (config.schemaPath.under root)
    cases b with
    | true => exact hload
    | false => exact .bind (.throw _) fun _ => hload
  | some format =>
    have hload := answersAs_loadDataModelAs (config.schemaPath.under root) format
    cases b with
    | true => exact hload
    | false => exact .bind (.throw _) fun _ => hload

/-- The text at the path is the only one that is read, whether or not it can be. -/
theorem noted_loadDataModelAs {fs : FileSystem} {noted : List Path} (p : Path) (format : FileFormat) :
    (fs.runNoted noted (loadDataModelAs p format)).1.2 = p :: noted := by
  rw [loadDataModelAs, runNoted_bind, runNoted_adapt, runNoted_readText]
  cases fs.readText p with
  | error e => rfl
  | ok text => simp [Except.mapError]

/-! ## Detection -/

/-- The format of a file is the same wherever its path is taken from. -/
theorem FileFormat.ofPath?_join (h : p.EndsIn name) (root : Path) :
    ofPath? (root.join p) = ofPath? p := by
  have hjoin : (root.join p).fileName? = some name := Path.fileName?_eq_some_iff.mpr (h.join root)
  have hname : p.fileName? = some name := Path.fileName?_eq_some_iff.mpr h
  rw [ofPath?, ofPath?, Path.extension?, Path.extension?, hjoin, hname]

/-- A path without a name for its last component takes that of the root. -/
example : FileFormat.ofPath? (Path.join ⟨"schema.json"⟩ ⟨"."⟩) = some .json ∧
    FileFormat.ofPath? ⟨"."⟩ = none := by
  decide

/-- Whoever reads files, the path in the configuration alone tells how they are read. -/
theorem loadProjectDataModel_eq {m : Type → Type} [Monad m] [ReadsFiles m] {config : Config}
    (h : config.schemaPath.EndsIn name) (root : Path) :
    loadProjectDataModel (m := m) config (some root) none =
      match FileFormat.ofPath? config.schemaPath with
      | some format => loadProjectDataModel config (some root) (some format)
      | none => (do
        let p := root.join config.schemaPath
        unless ← pathExists (m := m) p do throw (.schemaMissing p)
        throw (.formatUnknown p)) := by
  unfold loadProjectDataModel loadDataModel Path.under
  simp only [FileFormat.ofPath?_join h root]
  cases FileFormat.ofPath? config.schemaPath <;> rfl

/-- The last name in a path tells the same format, if any, from every root. If it tells one, the
schema description of a project that has something there is loaded as if this format were given,
from that text only. If it tells none, the path is refused, and no text is read. -/
theorem format_detected (root : Path) (h : p.EndsIn name) :
    FileFormat.ofPath? (root.join p) = FileFormat.ofPath? p ∧
    ∀ (config : Config) (fs : FileSystem), config.schemaPath = p →
      fs.pathExists (root.join p) = true →
      (∀ format, FileFormat.ofPath? p = some format →
        fs.run (loadProjectDataModel (m := Action) config (some root) none) =
          fs.run (loadProjectDataModel (m := Action) config (some root) (some format)) ∧
        fs.textsRead (loadProjectDataModel config (some root) none) = [root.join p]) ∧
      (FileFormat.ofPath? p = none →
        fs.run (loadProjectDataModel (m := Action) config (some root) none) =
          (.error (.formatUnknown (root.join p)), fs) ∧
        fs.textsRead (loadProjectDataModel config (some root) none) = []) := by
  refine ⟨FileFormat.ofPath?_join h root, ?_⟩
  rintro config fs rfl hexists
  constructor
  · intro format hformat
    constructor
    · rw [loadProjectDataModel_eq h root, hformat]
    · rw [textsRead, loadProjectDataModel_eq h root, hformat]
      show (fs.runNoted [] (loadProjectDataModel config (some root) (some format))).1.2 = _
      rw [loadProjectDataModel, runNoted_bind, Path.under, runNoted_pathExists, hexists]
      exact noted_loadDataModelAs _ _
  · intro hformat
    have hnoted : fs.runNoted [] (loadProjectDataModel config (some root) none) =
        ((.error (.formatUnknown (root.join config.schemaPath)), []), fs) := by
      rw [loadProjectDataModel_eq h root, hformat]
      show fs.runNoted [] (_ >>= _) = _
      rw [runNoted_bind, runNoted_pathExists, hexists]
      rfl
    rw [← answersAs_loadProjectDataModel _ _ _ fs [], textsRead, hnoted]
    exact ⟨rfl, rfl⟩

namespace Release

def root : Path := ⟨"v1.2/app.json"⟩

def project : FileSystem where
  entries :=
    [(["v1.2".toList], .directory),
      (["app.json".toList, "v1.2".toList], .directory),
      (["schema.d".toList, "app.json".toList, "v1.2".toList], .directory),
      (["model.v2.yml".toList, "app.json".toList, "v1.2".toList], .file (.text "models: []"))]
  current := []

/-- A path to the file, by way of a directory. -/
def file : Config where
  schemaPath := ⟨"./schema.d//../model.v2.yml"⟩

def directory : Config where
  schemaPath := ⟨"schema.d/.//"⟩

theorem endsIn_file : file.schemaPath.EndsIn "model.v2.yml".toList :=
  ⟨⟨by decide, by decide, by decide, by decide⟩, "./schema.d//../".toList, [], by decide,
    .inr ⟨"./schema.d//..".toList, by decide⟩, .nil⟩

theorem endsIn_directory : directory.schemaPath.EndsIn "schema.d".toList :=
  ⟨⟨by decide, by decide, by decide, by decide⟩, [], "/.//".toList, by decide, .inl rfl,
    .here (.slash (.slash .nil))⟩

theorem detected_file_directory :
    (file.schemaPath.EndsIn "model.v2.yml".toList ∧
      project.pathExists (root.join file.schemaPath) = true ∧
      FileFormat.ofPath? file.schemaPath = some .yml ∧
      project.run (loadProjectDataModel (m := Action) file (some root) none) =
        project.run (loadProjectDataModel (m := Action) file (some root) (some .yml))) ∧
    (directory.schemaPath.EndsIn "schema.d".toList ∧
      project.pathExists (root.join directory.schemaPath) = true ∧
      FileFormat.ofPath? directory.schemaPath = none ∧
      project.run (loadProjectDataModel (m := Action) directory (some root) none) =
        (.error (.formatUnknown (root.join directory.schemaPath)), project) ∧
      project.textsRead (loadProjectDataModel directory (some root) none) = []) := by
  have hfile : project.pathExists (root.join file.schemaPath) = true := by decide
  have hdirectory : project.pathExists (root.join directory.schemaPath) = true := by decide
  have hyml : FileFormat.ofPath? file.schemaPath = some .yml := by decide
  have hnone : FileFormat.ofPath? directory.schemaPath = none := by decide
  obtain ⟨-, hload⟩ := format_detected root endsIn_file
  obtain ⟨-, hfail⟩ := format_detected root endsIn_directory
  exact ⟨⟨endsIn_file, hfile, hyml, ((hload file project rfl hfile).1 .yml hyml).1⟩,
    endsIn_directory, hdirectory, hnone, (hfail directory project rfl hdirectory).2 hnone⟩

end Release

end Dbml
