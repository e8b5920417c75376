import Dbml.Proofs.Command.Reading
import Dbml.Proofs.Schema.RoundTrip

/-!
# What commands change

A command that fails changes nothing, or makes directories for a document that it cannot write,
and one that succeeds puts at most one file where it says (`run_command`). So files appear or
change, whatever commands are run one after the other, only where one of them wrote its own
(`after_commands`).
-/

namespace Dbml

open FileSystem

variable {fs fs' : FileSystem}

/-- Where the document goes. -/
def Config.documentPath (c : Config) (outputDir : Option Path) : Path :=
  { c with outputDir := outputDir.getD c.outputDir }.outputPath

/-! ## Steps of commands -/

theorem run_writeFile (p : Path) (text : String) :
    fs.run (writeFile (m := Action) p text) = match fs.write p (.text text) with
      | .ok fs' => (.ok (), fs')
      | .error e => (.error (.notWritten p e), fs) := by
  change fs.run (ExceptT.adapt _ (change (·.write p (.text text)))) = _
  rw [run_adapt, run_change]
  cases fs.write p (.text text) <;> rfl

/-- Makes a directory and those that lead to it, unless it is there. -/
def prepareDirectory (dir : Path) : ExceptT CommandError Action Unit := do
  unless ← pathExists (m := Action) dir do
    (createDirectories dir).adapt (CommandError.noDirectory dir)

theorem writeDocument_eq (input : Input) (outputDir : Option Path) (skip : Bool) :
    writeDocument (m := Action) input outputDir skip = (do
      let config ← input.config
      let text ← input.document config skip
      prepareDirectory (outputDir.getD config.outputDir)
      writeFile (config.documentPath outputDir) text
      return "Generated " ++ (config.documentPath outputDir).text ++ "\n") := by
  unfold writeDocument
  refine congrArg _ (funext fun config => congrArg _ (funext fun text => ?_))
  rw [prepareDirectory, bind_assoc]
  refine congrArg (_ >>= ·) (funext fun b => ?_)
  cases b with
  | true =>
    simp only [if_true, pure_bind]
    rfl
  | false => rfl

/-- A directory that was prepared needs nothing more, and one that cannot be prepared is named in
the error. -/
theorem run_prepareDirectory {dir : Path} {r : Except CommandError Unit}
    (h : fs.run (prepareDirectory dir) = (r, fs')) : AddsDirectories fs fs' ∧
      (∀ e, r = .error e → ∃ cause, e = .noDirectory dir cause) ∧
      (r = .ok () → ∀ fs'', Extends fs' fs'' →
        fs''.run (prepareDirectory dir) = (.ok (), fs'')) := by
  have hthere (fs : FileSystem) (hp : fs.pathExists dir = true) :
      fs.run (prepareDirectory dir) = (.ok (), fs) := by
    rw [prepareDirectory, run_bind, run_pathExists, hp]
    rfl
  have hmissing (fs : FileSystem) (hp : fs.pathExists dir = false) : fs.run (prepareDirectory dir) =
      fs.run ((createDirectories dir).adapt (CommandError.noDirectory dir)) := by
    rw [prepareDirectory, run_bind, run_pathExists, hp]
    rfl
  cases hp : fs.pathExists dir with
  | true =>
    obtain ⟨rfl, rfl⟩ := Prod.mk.inj ((hthere fs hp).symm.trans h)
    exact ⟨.refl fs, fun _ he => (nomatch he), fun _ fs'' hext => hthere fs'' (hext.pathExists hp)⟩
  | false =>
    rw [hmissing fs hp, run_adapt] at h
    rcases hmade : fs.run (createDirectories (m := Action) dir) with ⟨r', fs₁⟩
    rw [hmade] at h
    obtain ⟨rfl, rfl⟩ := Prod.mk.inj h
    refine ⟨addsDirectories_createDirectories hmade, fun e he => ?_, fun hok fs'' hext => ?_⟩
    · obtain ⟨cause, -, hcause⟩ := mapError_eq_error_iff.mp he
      exact ⟨cause, hcause.symm⟩
    obtain rfl : r' = .ok () := mapError_eq_ok_iff.mp hok
    rcases isDirectory_createDirectories hmade with hdir | hnone
    · exact hthere fs'' (pathExists_of_isDirectory (hext.isDirectory hdir))
    · cases hp'' : fs''.pathExists dir with
      | true => exact hthere fs'' hp''
      | false =>
        rw [hmissing fs'' hp'', run_adapt, hnone fs'']
        rfl

/-- Whether there is a document to write, and the error says that it could not be put where it
goes. -/
def Command.FailsInOutput (c : Command) (fs : FileSystem) (e : CommandError) : Prop :=
  ∃ input outputDir skip config text, c = .generate input outputDir skip ∧
    fs.run (input.config (m := Action)) = (.ok config, fs) ∧
    fs.run (input.document (m := Action) config skip) = (.ok text, fs) ∧
    ∃ cause, e = .noDirectory (outputDir.getD config.outputDir) cause ∨
      e = .notWritten (config.documentPath outputDir) cause

/-- How writing a document ends: it fails without a change, or with no more than directories
made for a document that could not be put there, or the document is written where it goes. -/
theorem run_writeDocument {input : Input} {outputDir : Option Path} {skip : Bool}
    {r : Except CommandError String}
    (h : fs.run (writeDocument input outputDir skip) = (r, fs')) :
    (∃ e, r = .error e ∧ (fs' = fs ∨ AddsDirectories fs fs' ∧
        (Command.generate input outputDir skip).FailsInOutput fs e)) ∨
      ∃ config text fs₁, fs.run (input.config (m := Action)) = (.ok config, fs) ∧
        fs.run (input.document (m := Action) config skip) = (.ok text, fs) ∧
        fs.run (prepareDirectory (outputDir.getD config.outputDir)) = (.ok (), fs₁) ∧
        fs₁.write (config.documentPath outputDir) (.text text) = .ok fs' ∧
        r = .ok ("Generated " ++ (config.documentPath outputDir).text ++ "\n") := by
  rw [writeDocument_eq] at h
  rcases of_run_bind h with ⟨e, hconfig, rfl⟩ | ⟨config, fs₁, hconfig, h₁⟩
  · exact .inl ⟨e, rfl, .inl (run_config hconfig)⟩
  obtain rfl := run_config hconfig
  rcases of_run_bind h₁ with ⟨e, htext, rfl⟩ | ⟨text, fs₂, htext, h₂⟩
  · exact .inl ⟨e, rfl, .inl (run_document htext)⟩
  obtain rfl := run_document htext
  -- From here on there is a document.
  rcases of_run_bind h₂ with ⟨e, hdir, rfl⟩ | ⟨u, fs₃, hdir, h₃⟩
  · obtain ⟨hadds, herror, -⟩ := run_prepareDirectory hdir
    obtain ⟨cause, he⟩ := herror e rfl
    exact .inl ⟨e, rfl, .inr ⟨hadds, input, outputDir, skip, config, text, rfl, hconfig, htext,
      cause, .inl he⟩⟩
  have hadds := (run_prepareDirectory hdir).1
  rw [run_bind, run_writeFile] at h₃
  cases hwrite : fs₃.write (config.documentPath outputDir) (.text text) with
  | error cause =>
    rw [hwrite] at h₃
    obtain ⟨rfl, rfl⟩ := Prod.mk.inj h₃
    exact .inl ⟨_, rfl, .inr ⟨hadds, input, outputDir, skip, config, text, rfl, hconfig, htext,
      cause, .inr rfl⟩⟩
  | ok fs₄ =>
    rw [hwrite] at h₃
    obtain ⟨rfl, rfl⟩ := Prod.mk.inj h₃
    exact .inr ⟨config, text, fs₃, hconfig, htext, hdir, hwrite, rfl⟩

/-- How making a configuration ends: it fails and nothing is changed, or there was none and it
is written. -/
theorem run_createConfig {r : Except CommandError String}
    (h : fs.run createConfig = (r, fs')) :
    (∃ e, r = .error e) ∧ fs' = fs ∨
      fs.pathExists ⟨configName⟩ = false ∧
        fs.write ⟨configName⟩ (.text (Config.toValue {}).pretty) = .ok fs' ∧
        r = .ok ("Created " ++ configName ++ "\n") := by
  rw [createConfig, run_bind, run_pathExists] at h
  cases hp : fs.pathExists ⟨configName⟩ with
  | true =>
    rw [hp] at h
    obtain ⟨rfl, rfl⟩ := Prod.mk.inj h
    exact .inl ⟨⟨_, rfl⟩, rfl⟩
  | false =>
    rw [hp] at h
    change fs.run (writeFile (m := Action) _ _ >>= _) = _ at h
    rw [run_bind, run_writeFile] at h
    cases hwrite : fs.write ⟨configName⟩ (.text (Config.toValue {}).pretty) with
    | error e =>
      rw [hwrite] at h
      obtain ⟨rfl, rfl⟩ := Prod.mk.inj h
      exact .inl ⟨⟨_, rfl⟩, rfl⟩
    | ok fs₁ =>
      rw [hwrite] at h
      obtain ⟨rfl, rfl⟩ := Prod.mk.inj h
      exact .inr ⟨rfl, rfl, rfl⟩

theorem run_showDocument {input : Input} {r : Except CommandError String}
    (h : fs.run (showDocument input) = (r, fs')) : fs' = fs := by
  rcases of_run_bind h with ⟨e, hconfig, rfl⟩ | ⟨config, fs₁, hconfig, h₁⟩
  · exact run_config hconfig
  obtain rfl := run_config hconfig
  rcases of_run_bind h₁ with ⟨e, htext, rfl⟩ | ⟨text, fs₂, htext, h₂⟩
  · exact run_document htext
  obtain rfl := run_document htext
  exact (Prod.mk.inj h₂).2.symm

/-! ## Commands -/

/-- Whether a command that is run on a file system may put a file at a location: a new
configuration where nothing was at its path, or a document where the configuration or the
command says. -/
def Command.MayPut (c : Command) (fs : FileSystem) (l : Location) : Prop :=
  match c with
  | .init => fs.pathExists ⟨configName⟩ = false ∧ l = fs.place ⟨configName⟩
  | .generate input outputDir _ => ∃ config,
    fs.run (input.config (m := Action)) = (.ok config, fs) ∧
      l = fs.place (config.documentPath outputDir)
  | .print _ => False

/-- The file system after a write. -/
theorem file?_ne_of_write {fs₁ : FileSystem} {p : Path} {c : Content}
    (hadds : AddsDirectories fs fs₁) (h : fs₁.write p c = .ok fs') {l : Location}
    (hl : fs'.file? l ≠ fs.file? l) : l = fs.place p := by
  have hplace : fs'.place p = fs.place p := (hadds.extension.trans (extends_write h)).place p
  by_contra hne
  rw [file?_write h, hplace, if_neg hne, hadds.files] at hl
  exact hl rfl

/-- What a command does to a file system: all entries stay. If it fails, nothing is changed,
except that directories may have been made for a document that could not be put there, and if
it succeeds, no file is changed but where it may put one. A command that shows a document changes
nothing. -/
theorem run_command {c : Command} {r : Except CommandError String}
    (h : fs.run c.run = (r, fs')) :
    Extends fs fs' ∧
      (∀ e, r = .error e → fs' = fs ∨ AddsDirectories fs fs' ∧ c.FailsInOutput fs e) ∧
      (∀ l, fs'.file? l ≠ fs.file? l → (∃ out, r = .ok out) ∧ c.MayPut fs l) ∧
      ∀ input, c = .print input → fs' = fs := by
  have hsame (h : AddsDirectories fs fs') {p : Location → Prop} :
      ∀ l, fs'.file? l ≠ fs.file? l → p l := fun l hl => absurd (congrFun h.files l) hl
  cases c with
  | init =>
    rcases run_createConfig h with ⟨-, rfl⟩ | ⟨hp, hwrite, rfl⟩
    · exact ⟨.refl _, fun _ _ => .inl rfl, hsame (.refl _), nofun⟩
    · exact ⟨extends_write hwrite, fun _ he => (nomatch he),
        fun l hl => ⟨⟨_, rfl⟩, hp, file?_ne_of_write (.refl fs) hwrite hl⟩, nofun⟩
  | generate input outputDir skip =>
    rcases run_writeDocument h with
      ⟨e, rfl, hfail⟩ | ⟨config, text, fs₁, hconfig, -, hdir, hwrite, rfl⟩
    · have hadds : AddsDirectories fs fs' := by
        rcases hfail with rfl | ⟨hadds, -⟩
        · exact .refl _
        · exact hadds
      exact ⟨hadds.extension, fun e' he => Except.error.inj he ▸ hfail, hsame hadds, nofun⟩
    · have hadds := (run_prepareDirectory hdir).1
      exact ⟨hadds.extension.trans (extends_write hwrite), fun _ he => (nomatch he),
        fun l hl => ⟨⟨_, rfl⟩, config, hconfig, file?_ne_of_write hadds hwrite hl⟩, nofun⟩
  | print input =>
    obtain rfl := run_showDocument h
    exact ⟨.refl _, fun _ _ => .inl rfl, hsame (.refl _), fun _ _ => rfl⟩

/-! ## Commands one after the other -/

namespace FileSystem

/-- The file system after some commands, each of which is run whether or not those before it
have failed. -/
def after (fs : FileSystem) (commands : List Command) : FileSystem :=
  commands.foldl (fun fs c => (fs.run c.run).2) fs

theorem after_append (fs : FileSystem) (before rest : List Command) :
    fs.after (before ++ rest) = (fs.after before).after rest := List.foldl_append

theorem extends_after (fs : FileSystem) (commands : List Command) :
    Extends fs (fs.after commands) := by
  induction commands generalizing fs with
  | nil => exact .refl fs
  | cons c rest ih =>
    have hrun : fs.run c.run = ((fs.run c.run).1, (fs.run c.run).2) := rfl
    exact (run_command hrun).1.trans (ih _)

/-- A file that has appeared or changed was put there by one of the commands. -/
theorem exists_of_file?_after {commands : List Command} {l : Location}
    (h : (fs.after commands).file? l ≠ fs.file? l) : ∃ before c rest,
      commands = before ++ c :: rest ∧ (∃ out, ((fs.after before).run c.run).1 = .ok out) ∧
        c.MayPut (fs.after before) l := by
  induction commands generalizing fs with
  | nil => exact absurd rfl h
  | cons c rest ih =>
    by_cases hstep : ((fs.run c.run).2).file? l = fs.file? l
    · rw [← hstep] at h
      obtain ⟨before, c', rest', rfl, hok, hput⟩ := ih h
      exact ⟨c :: before, c', rest', rfl, hok, hput⟩
    · have hrun : fs.run c.run = ((fs.run c.run).1, (fs.run c.run).2) := rfl
      obtain ⟨-, -, hput, -⟩ := run_command hrun
      exact ⟨[], c, rest, rfl, (hput l hstep).1, (hput l hstep).2⟩

end FileSystem

/-- What commands change, whatever they are and wherever they start. A file that is new or holds
something else in the end was put there by a command that succeeded and may put a file there:
a new configuration where nothing was, or a document at its path. At every point of the run,
files that are there stay, and a command that shows a document changes nothing at all. A command
that fails changes nothing either, unless it had made a document and could not put it where it
goes: then it changes no file, though it may have made directories. -/
theorem after_commands (fs : FileSystem) (commands : List Command) :
    (∀ l, (fs.after commands).file? l ≠ fs.file? l → ∃ before c rest,
      commands = before ++ c :: rest ∧ (∃ out, ((fs.after before).run c.run).1 = .ok out) ∧
        c.MayPut (fs.after before) l) ∧
    (∀ before rest, commands = before ++ rest →
      ∀ l, ((fs.after before).file? l).isSome → ((fs.after commands).file? l).isSome) ∧
    ∀ before c rest, commands = before ++ c :: rest →
      let old := fs.after before
      let new := fs.after (before ++ [c])
      (∀ l, new.file? l ≠ old.file? l → (∃ out, (old.run c.run).1 = .ok out) ∧ c.MayPut old l) ∧
      (∀ e, (old.run c.run).1 = .error e → new.file? = old.file? ∧ Extends old new ∧
        (new = old ∨ c.FailsInOutput old e)) ∧
      ∀ input, c = .print input → new = old := by
  refine ⟨fun l hl => exists_of_file?_after hl, ?_, ?_⟩
  · rintro before rest rfl l hl
    rw [after_append]
    exact (extends_after _ rest).file l hl
  · rintro before c rest -
    intro old new
    have hnew : old.run c.run = ((old.run c.run).1, new) := by
      rw [show new = old.after [c] from after_append fs before [c]]
      rfl
    obtain ⟨-, hfail, hput, hprint⟩ := run_command hnew
    refine ⟨hput, fun e he => ?_, hprint⟩
    rcases hfail e he with hsame | ⟨hadds, houtput⟩
    · rw [hsame]
      exact ⟨rfl, .refl old, .inl rfl⟩
    · exact ⟨hadds.files, hadds.extension, .inr houtput⟩

namespace EmptyFolder

def files : FileSystem where
  entries := [([['p']], .directory)]
  current := [['p']]

/-- There is nothing to write a document of, and no second configuration can be made. -/
def commands : List Command := [.generate {} none false, .init, .init]

theorem effects_of_commands :
    let l := [configName.toList, ['p']]
    files.file? l = none ∧
    (files.after commands).file? l = some (.text (Config.toValue {}).pretty) ∧
    (∃ before c rest, commands = before ++ c :: rest ∧
      (∃ out, ((files.after before).run c.run).1 = .ok out) ∧ c.MayPut (files.after before) l) ∧
    files.after (commands.take 1) = files ∧
    files.after commands = files.after (commands.take 2) := by
  intro l
  obtain ⟨hput, -, hstep⟩ := after_commands files commands
  have hnone : files.file? l = none := rfl
  have hnew : (files.after commands).file? l = some (.text (Config.toValue {}).pretty) := rfl
  obtain ⟨-, hgenerate, -⟩ := hstep [] (.generate {} none false) [.init, .init] rfl
  obtain ⟨-, hinit, -⟩ := hstep [.generate {} none false, .init] .init [] rfl
  obtain ⟨-, -, hgenerate⟩ := hgenerate (.load (.schemaMissing ⟨"schema.json"⟩)) rfl
  obtain ⟨-, -, hinit⟩ := hinit .configExists rfl
  refine ⟨hnone, hnew, hput l ?_, hgenerate.resolve_right ?_, hinit.resolve_right ?_⟩
  · rw [hnew, hnone]
    exact Option.some_ne_none _
  · rintro ⟨input, outputDir, skip, config, text, -, -, -, cause, h | h⟩ <;> cases h
  · rintro ⟨input, outputDir, skip, config, text, h, -⟩
    cases h

end EmptyFolder

namespace Folder

def dataModel : DataModel := { enums := [{ name := "Role", values := ["ADMIN", "USER"] }] }

/-- A directory with a schema description only. -/
def files : FileSystem :=
  EmptyFolder.files.set ["schema.json".toList, ['p']] (.file (.text dataModel.toValue.compact))

def document : Document where
  project := none
  tables := []
  enums := dataModel.enums
  references := []
  joinTables := []

theorem render_eq : ({} : Options).render dataModel = .ok document.text :=
  render_eq_ok_iff.mpr ⟨document, by with_unfolding_all rfl, rfl⟩

theorem run_config_files : files.run (Input.config (m := Action) {}) = (.ok {}, files) := rfl

theorem run_document_files {text : String} (h : ({} : Options).render dataModel = .ok text) :
    files.run (Input.document (m := Action) {} {} false) = (.ok text, files) := by
  have hfile : files.find ⟨"schema.json"⟩ = .ok (.file (.text dataModel.toValue.compact)) := rfl
  have hread : Json.read DataModel.read dataModel.toValue.compact = .ok dataModel :=
    Json.read_compact (dataModel.reads (by decide)) (by decide) (by decide)
  have hload : files.run (loadProjectDataModel (m := Action) {} none none) =
      (.ok dataModel, files) := run_loadProjectDataModel_of_find hfile rfl hread
  exact run_document_eq_ok_iff.mpr ⟨dataModel, hload, h⟩

/-- A directory on the way stays, though none can be made where a file is and no document is
written. -/
theorem directory_left :
    let c : Command := .generate {} (some ⟨"made/../schema.json"⟩) false
    (files.run c.run).1 = .error (.noDirectory ⟨"made/../schema.json"⟩ .alreadyExists) ∧
    files.at? ["made".toList, ['p']] = none ∧
    (files.run c.run).2.at? ["made".toList, ['p']] = some .directory := by
  intro c
  have hdir : files.run (prepareDirectory ⟨"made/../schema.json"⟩) =
      (.error (.noDirectory ⟨"made/../schema.json"⟩ .alreadyExists),
        files.set ["made".toList, ['p']] .directory) := rfl
  have hrun : files.run c.run = (.error (.noDirectory ⟨"made/../schema.json"⟩ .alreadyExists),
      files.set ["made".toList, ['p']] .directory) := by
    change files.run (writeDocument {} (some ⟨"made/../schema.json"⟩) false) = _
    rw [writeDocument_eq, run_bind, run_config_files]
    change files.run (Input.document (m := Action) {} {} false >>= _) = _
    rw [run_bind, run_document_files render_eq]
    change files.run (prepareDirectory ⟨"made/../schema.json"⟩ >>= _) = _
    rw [run_bind, hdir]
  rw [hrun]
  exact ⟨rfl, rfl, rfl⟩

end Folder

end Dbml
