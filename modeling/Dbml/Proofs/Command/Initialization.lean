import Dbml.Proofs.Command.Repetition
import Dbml.Proofs.FileSystem.Agreement
import Dbml.Proofs.Config.RoundTrip

/-!
# Configurations that are made

The configuration that `init` writes is the one that a project without one has, so it changes
nothing that is shown later, unless it is itself taken for the schema description
(`print_after_init`). That rests on its text, from which every configuration is read back.
-/

namespace Dbml

open FileSystem

namespace FileSystem

variable {fs fs' : FileSystem} {k l l' : Location} {c : Content} {p : Path}

/-! ## A file where nothing was -/

/-- Nothing is behind what is no directory, so a walk that does not end there does without it. -/
theorem AgreeOff.foldlM_step_of_ok {cs : List Component} (h : AgreeOff l fs fs')
    (hl : fs.at? l ≠ some .directory) (hwalk : cs.foldlM fs.step k = .ok l') (hne : l' ≠ l) :
    cs.foldlM fs'.step k = .ok l' := by
  induction cs generalizing k with
  | nil => exact hwalk
  | cons s cs ih =>
    rw [List.foldlM_cons] at hwalk
    obtain ⟨k₁, hstep, hrest⟩ := bind_eq_ok_iff.mp hwalk
    obtain ⟨hdir, hnext, -⟩ := step_eq_ok_iff.mp hstep
    have hk : k ≠ l := fun heq => hl (heq ▸ hdir)
    have hk₁ : k₁ ≠ l := by
      rintro rfl
      cases cs with
      | nil => exact hne (Except.ok.inj hrest).symm
      | cons s' cs =>
        -- The next step would be taken from there.
        rw [List.foldlM_cons] at hrest
        obtain ⟨k₂, hstep', -⟩ := bind_eq_ok_iff.mp hrest
        exact hl (step_eq_ok_iff.mp hstep').1
    rw [List.foldlM_cons, h.step hk (hnext ▸ hk₁), hstep]
    exact ih hrest

/-- No other path tells whether there is a new file. -/
theorem SameText.of_agreeOff (hext : Extends fs fs') (h : AgreeOff l fs fs')
    (hl : fs'.at? l ≠ some .directory) (hp : fs'.locate p ≠ .ok l) : SameText fs fs' p := by
  cases hexists : fs.pathExists p with
  | true =>
    have hlocate := hext.locate (pathExists_iff.mp hexists).1
    have hne : fs.place p ≠ l := fun heq => hp (heq ▸ hlocate)
    exact .of_at? hext hexists (h.at? _ hne)
  | false =>
    refine ⟨?_, fun h => absurd (hexists.symm.trans h) Bool.false_ne_true⟩
    rw [hexists, Bool.eq_false_iff]
    intro hexists'
    obtain ⟨hlocate, hsome⟩ := pathExists_iff.mp hexists'
    have hne : fs'.place p ≠ l := fun heq => hp (hlocate.trans (congrArg _ heq))
    obtain ⟨hcheck, hwalk⟩ := locate_eq_ok_iff.mp hlocate
    rw [hext.start] at hwalk
    have hlocate : fs.locate p = .ok (fs.place p) :=
      hext.place p ▸ locate_eq_ok_iff.mpr ⟨hcheck, h.symm.foldlM_step_of_ok hl hwalk hne⟩
    rw [h.at? _ hne, hext.place] at hsome
    exact Bool.false_ne_true (hexists.symm.trans (pathExists_iff.mpr ⟨hlocate, hsome⟩))

/-- A file that is written where none is found is put where nothing was. -/
theorem write_of_not_pathExists (hp : fs.pathExists p = false) (h : fs.write p c = .ok fs') :
    fs.CanHold (fs.place p) (.file c) ∧ fs.at? (fs.place p) = none ∧
      fs' = fs.set (fs.place p) (.file c) := by
  obtain ⟨l, hl, hset⟩ := write_eq_ok_iff.mp h
  rw [place_of_locateFile hl]
  refine ⟨canHold_of_locateFile hl c, ?_, hset.symm⟩
  obtain ⟨outer, name, hlast, hslash, hsize, -, rfl⟩ := locateFile_eq_ok_iff.mp hl
  rw [← Option.not_isSome_iff_eq_none]
  intro hsome
  have hlocate := locate_of_locateLast hlast hsize (.inr ⟨hslash, hsome⟩)
  have hthere : fs.pathExists p = true := by
    rw [pathExists_iff, place_of_locate hlocate]
    exact ⟨hlocate, hsome⟩
  exact Bool.false_ne_true (hp.symm.trans hthere)

end FileSystem

/-! ## Showing the document -/

variable {fs fs' : FileSystem}

/-- A project without a configuration file has the configuration of one. -/
theorem run_config_of_not_pathExists {input : Input} (h : fs.pathExists ⟨configName⟩ = false) :
    fs.run (input.config (m := Action)) = (.ok (Config.withInput {} input), fs) := by
  have hload : fs.run (loadProjectConfig (m := Action) none) = (.ok {}, fs) := by
    rw [loadProjectConfig, run_bind, Path.under, run_pathExists, h]
    rfl
  rw [Input.config, run_bind, run_adapt, hload]
  rfl

theorem run_config_of_find {input : Input} {text : String} {c : Config}
    (h : fs.find ⟨configName⟩ = .ok (.file (.text text)))
    (hread : Json.read Config.read text = .ok c) :
    fs.run (input.config (m := Action)) = (.ok (c.withInput input), fs) := by
  have hexists := pathExists_of_find h
  have htext : fs.readText ⟨configName⟩ = .ok text := by
    rw [FileSystem.readText, h]
    rfl
  have hload : fs.run (readConfig (m := Action) ⟨configName⟩) = (.ok c, fs) := by
    rw [readConfig, run_bind, run_adapt, run_readText, htext]
    change fs.run (ofExcept _) = _
    rw [run_ofExcept, hread]
    rfl
  have hload : fs.run (loadProjectConfig (m := Action) none) = (.ok c, fs) := by
    rw [loadProjectConfig, run_bind, Path.under, run_pathExists, hexists]
    change fs.run (loadConfig (m := Action) ⟨configName⟩) = _
    rw [loadConfig, run_bind, run_pathExists, hexists]
    exact hload
  rw [Input.config, run_bind, run_adapt, hload]
  rfl

/-- What is shown is the document of one configuration, if that is known. -/
theorem run_showDocument_of_config {input : Input} {c : Config}
    (h : fs.run (input.config (m := Action)) = (.ok c, fs)) :
    fs.run (showDocument input) =
      fs.run (do
        let text ← input.document (m := Action) c false
        return text ++ "\n") := by
  rw [showDocument, run_bind, h]

/-! ## A configuration more -/

/-- Whether nothing differs but that the second of two file systems has the configuration of a
project without one in its file, where the first has the same or nothing. -/
structure AddsConfig (fs fs' : FileSystem) : Prop where
  agree : AgreeOff (fs.place ⟨configName⟩) fs fs'
  made : fs'.at? (fs.place ⟨configName⟩) = some (.file (.text (Config.toValue {}).pretty))
  before : fs.at? (fs.place ⟨configName⟩) = none ∨
    fs.at? (fs.place ⟨configName⟩) = fs'.at? (fs.place ⟨configName⟩)

/-- Whether a command that writes a document neither reads the configuration as its schema
description nor comes by it on the way to where the document goes. -/
def Command.KeepsOffConfig (c : Command) (fs : FileSystem) : Prop :=
  match c with
  | .generate input outputDir _ =>
    fs.locate (input.path.getD ({} : Config).schemaPath) ≠ .ok (fs.place ⟨configName⟩) ∧
      fs.place ⟨configName⟩ ∉ visited fs.current (({} : Config).documentPath outputDir)
  | .init | .print _ => True

theorem ignores_prepareDirectory {d l : Location} {dir : Path} (hdir : l ∉ visited d dir) :
    Ignores d l (prepareDirectory dir) := by
  refine .bind (.pathExists hdir) fun b => ?_
  cases b with
  | true => exact .pure ()
  | false => exact .adapt _ (.createDirectories hdir)

/-- The output directory is on the way to the document. -/
theorem visited_dir_subset {d : Location} {outputDir : Option Path} :
    visited d (outputDir.getD ({} : Config).outputDir) ⊆
      visited d (({} : Config).documentPath outputDir) := by
  have hname : Path.isAbsolute ⟨({} : Config).outputName⟩ = false := by decide
  obtain ⟨habs, hsteps⟩ :=
    Path.filter_steps_prefix_join hname (outputDir.getD ({} : Config).outputDir)
  exact visited_subset habs.symm hsteps

namespace AddsConfig

theorem of_write (hp : fs.pathExists ⟨configName⟩ = false)
    (h : fs.write ⟨configName⟩ (.text (Config.toValue {}).pretty) = .ok fs') :
    AddsConfig fs fs' := by
  obtain ⟨hhold, hnone, rfl⟩ := write_of_not_pathExists hp h
  exact ⟨⟨current_set .., fun l hl => by rw [at?_set hhold, if_neg hl]⟩, at?_set_self hhold,
    .inl hnone⟩

theorem place_eq (h : AddsConfig fs fs') : fs'.place ⟨configName⟩ = fs.place ⟨configName⟩ := by
  rw [place_configName, place_configName, h.agree.current]

theorem extension (h : AddsConfig fs fs') : Extends fs fs' where
  current := h.agree.current
  directory l hl := by
    by_cases heq : l = fs.place ⟨configName⟩
    · subst heq
      rcases h.before with hnone | hsame
      · rw [hnone] at hl
        cases hl
      · rw [← hsame, hl]
    · rw [h.agree.at? l heq, hl]
  file l hl := by
    by_cases heq : l = fs.place ⟨configName⟩
    · subst heq
      rw [file?_eq_some_iff.mpr h.made, Option.isSome_some]
    · rwa [file?_congr (h.agree.at? l heq)]

theorem run_config_of_at? {input : Input}
    (h : fs.at? (fs.place ⟨configName⟩) = some (.file (.text (Config.toValue {}).pretty))) :
    fs.run (input.config (m := Action)) = (.ok (Config.withInput {} input), fs) := by
  have hexists : fs.pathExists ⟨configName⟩ = true :=
    pathExists_configName (by rw [h, Option.isSome_some])
  have hfind := find_eq_ok_iff.mpr ⟨(pathExists_iff.mp hexists).1, h⟩
  exact run_config_of_find hfind (Config.read_toValue {}).2

/-- With the configuration or without it, a project has the same one. -/
theorem run_config (h : AddsConfig fs fs') (input : Input) :
    fs.run (input.config (m := Action)) = (.ok (Config.withInput {} input), fs) ∧
      fs'.run (input.config (m := Action)) = (.ok (Config.withInput {} input), fs') := by
  refine ⟨?_, run_config_of_at? (h.place_eq ▸ h.made)⟩
  rcases h.before with hnone | hsame
  · refine run_config_of_not_pathExists (Bool.eq_false_iff.mpr fun hexists => ?_)
    have hsome := (pathExists_iff.mp hexists).2
    rw [hnone] at hsome
    cases hsome
  · exact run_config_of_at? (hsame.trans h.made)

theorem sameText (h : AddsConfig fs fs') {p : Path}
    (hp : fs'.locate p ≠ .ok (fs.place ⟨configName⟩)) : SameText fs fs' p :=
  .of_agreeOff h.extension h.agree (by rw [h.made]; exact nofun) hp

/-- What is shown is the same. -/
theorem run_showDocument (h : AddsConfig fs fs') {input : Input}
    (hschema : fs'.locate (input.path.getD ({} : Config).schemaPath) ≠
      .ok (fs.place ⟨configName⟩)) :
    (fs'.run (showDocument input)).1 = (fs.run (showDocument input)).1 := by
  obtain ⟨hconfig, hconfig'⟩ := h.run_config input
  rw [run_showDocument_of_config hconfig, run_showDocument_of_config hconfig']
  have hsame : SameText fs fs' (Config.withInput {} input).schemaPath := h.sameText hschema
  obtain ⟨r, hr, hr'⟩ := (readsAlike_document input false hsame).bind
    fun text _ => .pure (text ++ "\n")
  rw [hr, hr']

theorem of_ignores {ε α : Type} {x : ExceptT ε Action α} (h : AddsConfig fs fs')
    (hx : Ignores fs.current (fs.place ⟨configName⟩) x) :
    AddsConfig (fs.run x).2 (fs'.run x).2 := by
  obtain ⟨hcurrent, hkeeps⟩ := hx.keeps fs rfl
  obtain ⟨-, hkeeps'⟩ := hx.keeps fs' h.agree.current
  have hplace : (fs.run x).2.place ⟨configName⟩ = fs.place ⟨configName⟩ := by
    rw [place_configName, place_configName, hcurrent]
  rw [← hplace] at hkeeps hkeeps'
  exact ⟨hplace ▸ (hx.alike fs fs' rfl h.agree).2, hkeeps'.trans (hplace ▸ h.made), by
    rw [hkeeps, hkeeps', hplace]
    exact h.before⟩

/-- A document that is written without the configuration leaves it at that. -/
theorem run_writeDocument (h : AddsConfig fs fs') {input : Input} {outputDir : Option Path}
    {skip : Bool} (hc : (Command.generate input outputDir skip).KeepsOffConfig fs') :
    AddsConfig (fs.run (writeDocument input outputDir skip)).2
      (fs'.run (writeDocument input outputDir skip)).2 := by
  obtain ⟨hschema, hpath⟩ := hc
  rw [h.place_eq] at hschema hpath
  rw [h.agree.current] at hpath
  obtain ⟨hconfig, hconfig'⟩ := h.run_config input
  have hsame : SameText fs fs' (Config.withInput {} input).schemaPath := h.sameText hschema
  obtain ⟨r, hr, hr'⟩ := readsAlike_document input skip hsame
  rw [writeDocument_eq, run_bind, run_bind, hconfig, hconfig']
  change AddsConfig (fs.run (input.document (m := Action) (Config.withInput {} input) skip >>= _)).2
    (fs'.run (input.document (m := Action) (Config.withInput {} input) skip >>= _)).2
  rw [run_bind, run_bind, hr, hr']
  cases r with
  | error e => exact h
  | ok text =>
    refine h.of_ignores (.bind (ignores_prepareDirectory ?_) fun _ =>
      .bind (.adapt _ (.writeText hpath text)) fun _ => .pure _)
    exact fun hdir => hpath (visited_dir_subset hdir)

/-- So does every command. -/
theorem run_command (h : AddsConfig fs fs') {c : Command} (hc : c.KeepsOffConfig fs') :
    AddsConfig (fs.run c.run).2 (fs'.run c.run).2 := by
  cases c with
  | generate input outputDir skip => exact h.run_writeDocument hc
  | print input =>
    have hsame (fs : FileSystem) : (fs.run (showDocument input)).2 = fs :=
      Dbml.run_showDocument (Prod.mk.eta (p := fs.run (showDocument input))).symm
    change AddsConfig (fs.run (showDocument input)).2 (fs'.run (showDocument input)).2
    rwa [hsame, hsame]
  | init =>
    have hsame : (fs'.run createConfig).2 = fs' := by
      rcases run_createConfig (Prod.mk.eta (p := fs'.run createConfig)).symm with
        ⟨-, hsame⟩ | ⟨hp, -⟩
      · exact hsame
      · have hexists : fs'.pathExists ⟨configName⟩ = true :=
          pathExists_configName (by rw [h.place_eq, h.made, Option.isSome_some])
        exact absurd (hp.symm.trans hexists) Bool.false_ne_true
    change AddsConfig (fs.run createConfig).2 (fs'.run createConfig).2
    rw [hsame]
    rcases run_createConfig (Prod.mk.eta (p := fs.run createConfig)).symm with
      ⟨-, hfail⟩ | ⟨hp, hwrite, -⟩
    · rwa [hfail]
    · -- Now the first has the configuration as well.
      have hmade := of_write hp hwrite
      have hplace := hmade.place_eq
      refine ⟨⟨h.agree.current.trans hmade.agree.current.symm, fun l hl => ?_⟩, ?_, .inr ?_⟩
      · rw [hplace] at hl
        rw [h.agree.at? l hl, hmade.agree.at? l hl]
      · rw [hplace, h.made]
      · rw [hplace, h.made, hmade.made]

/-- So do commands one after the other. -/
theorem after {commands : List Command} (h : AddsConfig fs fs')
    (hcommands : ∀ before c rest, commands = before ++ c :: rest →
      c.KeepsOffConfig (fs'.after before)) :
    AddsConfig (fs.after commands) (fs'.after commands) := by
  induction commands generalizing fs fs' with
  | nil => exact h
  | cons c rest ih =>
    refine ih (h.run_command (hcommands [] c rest rfl)) fun before c' rest' heq => ?_
    exact hcommands (c :: before) c' rest' (by rw [heq, List.cons_append])

end AddsConfig

/-! ## Runs of commands -/

/-- A configuration is not made a second time. -/
theorem after_init_again (fs : FileSystem) : fs.after [.init, .init] = fs.after [.init] := by
  have hrun : fs.run createConfig = ((fs.run createConfig).1, fs.after [.init]) := rfl
  change ((fs.after [.init]).run createConfig).2 = _
  rcases run_createConfig hrun with ⟨-, hsame⟩ | ⟨-, hwrite, -⟩
  · rw [hsame]
    exact hsame
  · have hagain : (fs.after [.init]).run createConfig =
        (((fs.after [.init]).run createConfig).1, ((fs.after [.init]).run createConfig).2) := rfl
    rcases run_createConfig hagain with ⟨-, hsame⟩ | ⟨hp, -⟩
    · exact hsame
    · exact absurd (hp.symm.trans (pathExists_of_find (find_write hwrite))) Bool.false_ne_true

/-- Once there is a configuration, commands that write no document change nothing. -/
theorem after_init_cons {commands : List Command}
    (h : ∀ c ∈ commands, c = .init ∨ ∃ input, c = .print input) (fs : FileSystem) :
    fs.after (.init :: commands) = fs.after [.init] := by
  induction commands with
  | nil => rfl
  | cons c commands ih =>
    obtain ⟨hc, hcommands⟩ := List.forall_mem_cons.mp h
    have hstep : fs.after [.init, c] = fs.after [.init] := by
      rcases hc with rfl | ⟨input, rfl⟩
      · exact after_init_again fs
      · exact run_showDocument (Prod.mk.eta (p := (fs.after [.init]).run (showDocument input))).symm
    rw [← ih hcommands]
    change (fs.after [.init, c]).after commands = (fs.after [.init]).after commands
    rw [hstep]

/-- The text of a configuration, and that of the one that `init` makes. Every configuration is
read back from its compact and from its pretty text, also if any members that have the values
that they have by default are left out of it, of its own or of its options. So where no
configuration is found, making one first changes neither the text nor the error that showing
the document ends with, whatever was made or shown in between, if the path of the schema
description does not lead to the new file. Documents may be written in between as well, if none of
them is made of that file or comes by it: then the same commands alone end in the same way. -/
theorem print_after_init :
    (∀ c : Config, Json.read Config.read c.toValue.compact = .ok c ∧
      Json.read Config.read c.toValue.pretty = .ok c) ∧
    (∀ (c : Config) (own ofDbml : List String), c.MayOmit own ofDbml →
      Json.read Config.read (c.toValueWithout own ofDbml).compact = .ok c ∧
        Json.read Config.read (c.toValueWithout own ofDbml).pretty = .ok c) ∧
    ∀ (fs : FileSystem) (input : Input) (commands : List Command),
      fs.pathExists ⟨configName⟩ = false →
      ((∀ c ∈ commands, c = .init ∨ ∃ input, c = .print input) →
        (fs.after [.init]).locate (input.path.getD ({} : Config).schemaPath) ≠
          .ok (fs.place ⟨configName⟩) →
        ((fs.after (.init :: commands)).run (Command.print input).run).1 =
          (fs.run (Command.print input).run).1) ∧
      ((∀ before c rest, commands = before ++ c :: rest →
          c.KeepsOffConfig (fs.after (.init :: before))) →
        (fs.after (.init :: commands)).locate (input.path.getD ({} : Config).schemaPath) ≠
          .ok (fs.place ⟨configName⟩) →
        ((fs.after (.init :: commands)).run (Command.print input).run).1 =
          ((fs.after commands).run (Command.print input).run).1) := by
  refine ⟨Config.read_toValue, fun c own ofDbml h => c.read_toValueWithout h, ?_⟩
  intro fs input commands hp
  have hrun : fs.run createConfig = ((fs.run createConfig).1, fs.after [.init]) := rfl
  constructor
  · intro hcommands hschema
    rw [after_init_cons hcommands]
    rcases run_createConfig hrun with ⟨-, hsame⟩ | ⟨-, hwrite, -⟩
    · rw [hsame]
    · exact (AddsConfig.of_write hp hwrite).run_showDocument hschema
  · intro hcommands hschema
    change (((fs.after [.init]).after commands).run _).1 = _
    rcases run_createConfig hrun with ⟨-, hsame⟩ | ⟨-, hwrite, -⟩
    · rw [hsame]
    · have hadds := (AddsConfig.of_write hp hwrite).after hcommands
      have hplace : (fs.after commands).place ⟨configName⟩ = fs.place ⟨configName⟩ :=
        (extends_after fs commands).place ⟨configName⟩
      exact hadds.run_showDocument (hplace ▸ hschema)

namespace Shelf

def config : Config where
  schemaPath := ⟨"a/\"b\"\n𝄞.yml"⟩
  outputDir := ⟨""⟩
  dbml := { includeRelationFields := false }

/-- A directory with a schema description only. -/
def files : FileSystem where
  entries :=
    [([['p']], .directory),
      (["schema.json".toList, ['p']], .file (.text "\x7b\"models\": []\x7d"))]
  current := [['p']]

theorem mayOmit_config : config.MayOmit ["outputName"] ["manyToMany", "project"] where
  schemaPath := by decide
  outputDir := by decide
  outputName _ := rfl
  dbml := by decide
  options :=
    { manyToMany := fun _ => rfl
      includeRelationFields := by decide
      mapToDbSchema := fun _ => rfl
      project := fun _ => rfl }

/-- A document that is written in between, and not by way of the configuration. -/
theorem keepsOffConfig_generate (fs : FileSystem) (hcurrent : fs.current = [['p']]) :
    (Command.generate {} none false).KeepsOffConfig fs := by
  have hplace (p : Path) : fs.place p = files.place p := by
    rw [place, place, start, start, hcurrent]
    rfl
  refine ⟨fun h => ?_, ?_⟩
  · have hlocated := place_of_locate h
    rw [hplace, hplace] at hlocated
    revert hlocated
    decide
  · rw [hplace, hcurrent]
    decide

theorem printed_files :
    Json.read Config.read
      (config.toValueWithout ["outputName"] ["manyToMany", "project"]).pretty = .ok config ∧
    files.pathExists ⟨configName⟩ = false ∧
    ((files.after [.init, .print {}, .init]).run (Command.print {}).run).1 =
      (files.run (Command.print {}).run).1 ∧
    ((files.after [.init, .generate {} none false, .init]).run (Command.print {}).run).1 =
      ((files.after [.generate {} none false, .init]).run (Command.print {}).run).1 := by
  obtain ⟨-, homit, hprint⟩ := print_after_init
  have hnone : files.pathExists ⟨configName⟩ = false := by
    rw [Bool.eq_false_iff]
    intro h
    exact absurd (pathExists_iff.mp h).2 (by decide)
  have hplace : files.place ⟨"schema.json"⟩ ≠ files.place ⟨configName⟩ := by decide
  have hlocate (commands : List Command) :
      (files.after commands).locate ⟨"schema.json"⟩ ≠ .ok (files.place ⟨configName⟩) := by
    intro h
    have hlocated := place_of_locate h
    rw [(extends_after files commands).place] at hlocated
    exact hplace hlocated
  obtain ⟨hshown, -⟩ := hprint files {} [.print {}, .init] hnone
  obtain ⟨-, hwritten⟩ := hprint files {} [.generate {} none false, .init] hnone
  refine ⟨(homit _ _ _ mayOmit_config).2, hnone, hshown (by simp) (hlocate _),
    hwritten ?_ (hlocate _)⟩
  intro before c rest heq
  have hmem : c ∈ [.generate {} none false, Command.init] := heq ▸ by simp
  rcases List.mem_pair.mp hmem with rfl | rfl
  · exact keepsOffConfig_generate _ (extends_after files _).current
  · exact trivial

end Shelf

end Dbml
