import Dbml.Proofs.Command.Effects

/-!
# Writing and showing a document

What is written is what is shown, and writing it once more changes nothing, unless the first
time has put something where the configuration or the schema description is looked for
(`generate_print`).
-/

namespace Dbml

open FileSystem

namespace FileSystem

variable {fs fs' : FileSystem} {p : Path}

/-- A text that is there is read again if its entry is still the same. -/
theorem SameText.of_at? (hext : Extends fs fs') (hp : fs.pathExists p = true)
    (hat : fs'.at? (fs.place p) = fs.at? (fs.place p)) : SameText fs fs' p := by
  refine ⟨by rw [hp, hext.pathExists hp], fun _ => ?_⟩
  obtain ⟨hlocate, hsome⟩ := pathExists_iff.mp hp
  obtain ⟨e, he⟩ := Option.isSome_iff_exists.mp hsome
  have hfind : fs.find p = .ok e := find_eq_ok_iff.mpr ⟨hlocate, he⟩
  rw [readText, readText, hext.find hfind hat, hfind]

theorem steps_configName : Path.steps ⟨configName⟩ = [.normal configName.toList] := by decide

theorem place_configName (fs : FileSystem) :
    fs.place ⟨configName⟩ = configName.toList :: fs.current := by
  rw [place, steps_configName]
  rfl

/-- The configuration is found if there is an entry at its place. -/
theorem pathExists_configName (h : (fs.at? (fs.place ⟨configName⟩)).isSome) :
    fs.pathExists ⟨configName⟩ = true := by
  have hplace := place_configName fs
  have hdir : fs.at? fs.current = some .directory := parent_of_isSome (hplace ▸ h)
  have hstep : fs.step fs.current (.normal configName.toList) = .ok (fs.place ⟨configName⟩) := by
    refine step_eq_ok_iff.mpr ⟨hdir, hplace.symm, fun name hname => ?_⟩
    cases hname
    exact ⟨by decide, hplace ▸ h⟩
  rw [pathExists_iff, locate_eq_ok_iff, steps_configName, List.foldlM_cons]
  refine ⟨⟨by decide, ?_⟩, h⟩
  change fs.step fs.current _ >>= _ = _
  rw [hstep]
  rfl

/-- The configuration is read again, or missed again, if nothing has changed at its place. -/
theorem SameText.configName (hext : Extends fs fs')
    (hat : fs'.at? (fs.place ⟨configName⟩) = fs.at? (fs.place ⟨configName⟩)) :
    SameText fs fs' ⟨configName⟩ := by
  cases hp : fs.pathExists ⟨Dbml.configName⟩ with
  | true => exact .of_at? hext hp hat
  | false =>
    refine ⟨?_, fun h => absurd (hp.symm.trans h) Bool.false_ne_true⟩
    rw [hp, Bool.eq_false_iff]
    intro hp'
    obtain ⟨-, hsome⟩ := pathExists_iff.mp hp'
    rw [hext.place, hat] at hsome
    exact Bool.false_ne_true (hp.symm.trans (pathExists_configName hsome))

end FileSystem

variable {fs fs' : FileSystem}

/-- How showing a document ends: the configuration or the document fails, or the text is shown
on a line of its own. -/
theorem run_showDocument_cases {input : Input} {r : Except CommandError String}
    (h : fs.run (showDocument input) = (r, fs')) :
    (∃ e, r = .error e ∧ fs.run (input.config (m := Action)) = (.error e, fs)) ∨
      ∃ config, fs.run (input.config (m := Action)) = (.ok config, fs) ∧
        ((∃ e, r = .error e ∧
            fs.run (input.document (m := Action) config false) = (.error e, fs)) ∨
          ∃ t, r = .ok (t ++ "\n") ∧
            fs.run (input.document (m := Action) config false) = (.ok t, fs)) := by
  rcases of_run_bind h with ⟨e, hconfig, rfl⟩ | ⟨config, fs₁, hconfig, h₁⟩
  · obtain rfl := run_config hconfig
    exact .inl ⟨e, rfl, hconfig⟩
  obtain rfl := run_config hconfig
  refine .inr ⟨config, hconfig, ?_⟩
  rcases of_run_bind h₁ with ⟨e, htext, rfl⟩ | ⟨text, fs₂, htext, h₂⟩
  · obtain rfl := run_document htext
    exact .inl ⟨e, rfl, htext⟩
  obtain rfl := run_document htext
  exact .inr ⟨text, (Prod.mk.inj h₂).1.symm, htext⟩

/-- What is shown is determined by the configuration and the document. -/
theorem run_showDocument_eq {input : Input} {config : Config} {t : String}
    (hconfig : fs.run (input.config (m := Action)) = (.ok config, fs))
    (htext : fs.run (input.document (m := Action) config false) = (.ok t, fs)) :
    fs.run (showDocument input) = (.ok (t ++ "\n"), fs) := by
  rw [showDocument, run_bind, hconfig]
  change fs.run (input.document (m := Action) config false >>= _) = _
  rw [run_bind, htext]
  rfl

/-- Two texts that are made of one schema description: without join tables it is a beginning of
the one with them. -/
theorem text_of_document {input : Input} {config : Config} {skip : Bool} {t t' : String}
    (h : fs.run (input.document (m := Action) config false) = (.ok t, fs))
    (h' : fs.run (input.document (m := Action) config skip) = (.ok t', fs)) :
    (∃ rest, t = t' ++ rest) ∧ (skip = false → t = t') := by
  obtain ⟨dm, hdm, hrender⟩ := run_document_eq_ok_iff.mp h
  obtain ⟨dm', hdm', hrender'⟩ := run_document_eq_ok_iff.mp h'
  obtain rfl := Except.ok.inj (Prod.mk.inj (hdm.symm.trans hdm')).1
  exact render_skipping hrender hrender'

/-- What is written is determined by the configuration, the document and the directory. -/
theorem run_writeDocument_eq {input : Input} {outputDir : Option Path} {skip : Bool}
    {config : Config} {text : String} {fs₁ : FileSystem}
    (hconfig : fs.run (input.config (m := Action)) = (.ok config, fs))
    (htext : fs.run (input.document (m := Action) config skip) = (.ok text, fs))
    (hdir : fs.run (prepareDirectory (outputDir.getD config.outputDir)) = (.ok (), fs₁))
    (hwrite : fs₁.write (config.documentPath outputDir) (.text text) = .ok fs') :
    fs.run (writeDocument input outputDir skip) =
      (.ok ("Generated " ++ (config.documentPath outputDir).text ++ "\n"), fs') := by
  rw [writeDocument_eq, run_bind, hconfig]
  change fs.run (input.document (m := Action) config skip >>= _) = _
  rw [run_bind, htext]
  change fs.run (prepareDirectory (outputDir.getD config.outputDir) >>= _) = _
  rw [run_bind, hdir]
  change fs₁.run (writeFile (m := Action) _ _ >>= _) = _
  rw [run_bind, run_writeFile, hwrite]
  rfl

/-- A document that is written once more is there already, if the configuration and the schema
description are read as before. -/
theorem run_writeDocument_again {input : Input} {outputDir : Option Path} {skip : Bool}
    {config : Config} {text out : String} {fs₁ : FileSystem}
    (hconfig : fs'.run (input.config (m := Action)) = (.ok config, fs'))
    (htext : fs'.run (input.document (m := Action) config skip) = (.ok text, fs'))
    (hdir : fs.run (prepareDirectory (outputDir.getD config.outputDir)) = (.ok (), fs₁))
    (hwrite : fs₁.write (config.documentPath outputDir) (.text text) = .ok fs')
    (hout : out = "Generated " ++ (config.documentPath outputDir).text ++ "\n") :
    fs'.run (writeDocument input outputDir skip) = (.ok out, fs') := by
  have hready := (run_prepareDirectory hdir).2.2 rfl fs' (extends_write hwrite)
  rw [run_writeDocument_eq hconfig htext hready (write_again hwrite), hout]

/-- Writing and showing the document of one schema description, on any file system. If it cannot
be shown, it is not written either, for the same reason, and nothing is changed. If it is shown,
then a run that writes it leaves this text in the file, without the line feed behind it, or
a beginning of the text if there are to be no join tables. And unless that run has put something
where the configuration or the schema description is looked for, the same run succeeds again
without a change, and the same text is shown. -/
theorem generate_print (fs : FileSystem) (input : Input) (outputDir : Option Path) :
    (∀ e fs', fs.run (Command.print input).run = (.error e, fs') →
      fs.run (Command.generate input outputDir false).run = (.error e, fs)) ∧
    ∀ shown fs₀, fs.run (Command.print input).run = (.ok shown, fs₀) →
      ∃ t config, shown = t ++ "\n" ∧ fs.run (input.config (m := Action)) = (.ok config, fs) ∧
        ∀ skip out fs', fs.run (Command.generate input outputDir skip).run = (.ok out, fs') →
          (∃ t', fs'.find (config.documentPath outputDir) = .ok (.file (.text t')) ∧
            (∃ rest, t = t' ++ rest) ∧ (skip = false → t = t')) ∧
          ((∀ p ∈ [⟨configName⟩, config.schemaPath],
              fs'.at? (fs.place p) = fs.at? (fs.place p)) →
            fs'.run (Command.generate input outputDir skip).run = (.ok out, fs') ∧
              fs'.run (Command.print input).run = (.ok shown, fs')) := by
  constructor
  · intro e fs' h
    change fs.run (writeDocument input outputDir false) = _
    rw [writeDocument_eq, run_bind]
    rcases run_showDocument_cases h with ⟨e', he, hconfig⟩ | ⟨config, hconfig, htext⟩
    · obtain rfl := Except.error.inj he
      rw [hconfig]
    · rcases htext with ⟨e', he, htext⟩ | ⟨t, ht, -⟩
      · obtain rfl := Except.error.inj he
        rw [hconfig]
        change fs.run (input.document (m := Action) config false >>= _) = _
        rw [run_bind, htext]
      · cases ht
  · intro shown fs₀ h
    rcases run_showDocument_cases h with ⟨e', he, -⟩ | ⟨config, hconfig, htext⟩
    · cases he
    rcases htext with ⟨e', he, -⟩ | ⟨t, ht, htext⟩
    · cases he
    refine ⟨t, config, Except.ok.inj ht, hconfig, fun skip out fs' hrun => ?_⟩
    rcases run_writeDocument hrun with
      ⟨e, he, -⟩ | ⟨config', t', fs₁, hconfig', htext', hdir, hwrite, hout⟩
    · cases he
    obtain rfl := Except.ok.inj (Prod.mk.inj (hconfig.symm.trans hconfig')).1
    refine ⟨⟨t', find_write hwrite, text_of_document htext htext'⟩, fun hsame => ?_⟩
    have hext := (run_prepareDirectory hdir).1.extension.trans (extends_write hwrite)
    have hsameConfig := SameText.configName hext (hsame _ List.mem_cons_self)
    obtain ⟨dm, hdm, -⟩ := run_document_eq_ok_iff.mp htext
    have hschema := pathExists_of_loadProjectDataModel hdm
    have hsameSchema := SameText.of_at? hext hschema <|
      hsame _ (List.mem_cons_of_mem _ List.mem_cons_self)
    have hconfig₂ := ((readsAlike_config input hsameConfig).eq hconfig).2
    have htext₂ := ((readsAlike_document input skip hsameSchema).eq htext').2
    have hshown₂ := ((readsAlike_document input false hsameSchema).eq htext).2
    refine ⟨run_writeDocument_again hconfig₂ htext₂ hdir hwrite (Except.ok.inj hout), ?_⟩
    rw [Except.ok.inj ht]
    exact run_showDocument_eq hconfig₂ hshown₂

namespace Folder

/-- The directory with a document at its usual place. -/
def written (text : String) : FileSystem :=
  (files.set ["dbml".toList, ['p']] .directory).set ["schema.dbml".toList, "dbml".toList, ['p']]
    (.file (.text text))

theorem run_writeDocument_files {text : String} (h : ({} : Options).render dataModel = .ok text) :
    files.run (Command.generate {} none false).run =
      (.ok "Generated dbml/schema.dbml\n", written text) := by
  have hdir : files.run (prepareDirectory ⟨"dbml"⟩) =
      (.ok (), files.set ["dbml".toList, ['p']] .directory) := rfl
  have hwrite : (files.set ["dbml".toList, ['p']] .directory).write ⟨"dbml/schema.dbml"⟩
      (.text text) = .ok (written text) := rfl
  exact run_writeDocument_eq run_config_files (run_document_files h) hdir hwrite

/-- The document is neither where the configuration nor where the schema description is. -/
theorem at?_written (text : String) : ∀ p ∈ [⟨configName⟩, ({} : Config).schemaPath],
    (written text).at? (files.place p) = files.at? (files.place p) := by
  have hne : ∀ p ∈ [⟨configName⟩, ({} : Config).schemaPath],
      files.place p ≠ ["schema.dbml".toList, "dbml".toList, ['p']] ∧
        files.place p ≠ ["dbml".toList, ['p']] := by decide
  intro p hp
  obtain ⟨hfile, hdir⟩ := hne p hp
  have hholds : files.CanHold ["dbml".toList, ['p']] .directory := by decide
  have hmade : (files.set ["dbml".toList, ['p']] .directory).CanHold
      ["schema.dbml".toList, "dbml".toList, ['p']] (.file (.text text)) :=
    ⟨List.cons_ne_nil _ _, at?_set_self hholds, fun h => nomatch h⟩
  rw [written, at?_set hmade, if_neg hfile, at?_set hholds, if_neg hdir]

/-- Without a schema description there is nothing to show or to write; with one, the document
is written once and for all. -/
theorem generated_again :
    (∃ e, EmptyFolder.files.run (Command.print {}).run = (.error e, EmptyFolder.files) ∧
      EmptyFolder.files.run (Command.generate {} none false).run = (.error e, EmptyFolder.files)) ∧
    files.run (Command.generate {} none false).run =
      (.ok "Generated dbml/schema.dbml\n", written document.text) ∧
    (written document.text).run (Command.generate {} none false).run =
      (.ok "Generated dbml/schema.dbml\n", written document.text) ∧
    (written document.text).run (Command.print {}).run =
      (.ok (document.text ++ "\n"), written document.text) := by
  have hmissing : EmptyFolder.files.run (Command.print {}).run =
      (.error (.load (.schemaMissing ⟨"schema.json"⟩)), EmptyFolder.files) := rfl
  have hshow : files.run (Command.print {}).run = (.ok (document.text ++ "\n"), files) :=
    run_showDocument_eq run_config_files (run_document_files render_eq)
  have hrun := run_writeDocument_files render_eq
  obtain ⟨t, config, -, hconfig, hwritten⟩ := (generate_print files {} none).2 _ _ hshow
  obtain rfl : {} = config :=
    Except.ok.inj (Prod.mk.inj (run_config_files.symm.trans hconfig)).1
  obtain ⟨-, hagain⟩ := hwritten false _ _ hrun
  exact ⟨⟨_, hmissing, (generate_print _ {} none).1 _ _ hmissing⟩, hrun,
    hagain (at?_written _)⟩

end Folder

end Dbml
