import Dbml.Command
import Dbml.Proofs.FileSystem.Action
import Dbml.Proofs.Document.JoinTables

/-!
# What commands read

Loading a project and making its document leave the file system as it is, and the answer is the
same in two file systems in which the configuration and the schema description are the same
(`readsAlike_config`, `readsAlike_document`). Without join tables the document begins as it
does with them (`render_skipping`).
-/

namespace Dbml

open FileSystem

namespace FileSystem

variable {ε ε' α β : Type} {fs fs' : FileSystem}

/-- Whether an action has one answer in two file systems, and leaves both as they are. -/
def ReadsAlike (fs fs' : FileSystem) (x : ExceptT ε Action α) : Prop :=
  ∃ r, fs.run x = (r, fs) ∧ fs'.run x = (r, fs')

namespace ReadsAlike

theorem pure (a : α) : ReadsAlike fs fs' (pure a : ExceptT ε Action α) := ⟨_, rfl, rfl⟩

theorem throw (e : ε) : ReadsAlike fs fs' (throw e : ExceptT ε Action α) := ⟨_, rfl, rfl⟩

theorem ofExcept (r : Except ε α) : ReadsAlike fs fs' (ofExcept r : ExceptT ε Action α) :=
  ⟨r, run_ofExcept r, run_ofExcept r⟩

theorem bind {x : ExceptT ε Action α} {f : α → ExceptT ε Action β} (hx : ReadsAlike fs fs' x)
    (hf : ∀ a, fs.run x = (.ok a, fs) → ReadsAlike fs fs' (f a)) :
    ReadsAlike fs fs' (x >>= f) := by
  obtain ⟨r, hr, hr'⟩ := hx
  cases r with
  | error e => exact ⟨.error e, by rw [run_bind, hr], by rw [run_bind, hr']⟩
  | ok a =>
    obtain ⟨r, ha, ha'⟩ := hf a hr
    exact ⟨r, by rw [run_bind, hr, ← ha], by rw [run_bind, hr', ← ha']⟩

theorem adapt {x : ExceptT ε Action α} (f : ε → ε') (h : ReadsAlike fs fs' x) :
    ReadsAlike fs fs' (x.adapt f) := by
  obtain ⟨r, hr, hr'⟩ := h
  exact ⟨r.mapError f, by rw [run_adapt, hr], by rw [run_adapt, hr']⟩

theorem pathExists {p : Path} (h : fs'.pathExists p = fs.pathExists p) :
    ReadsAlike fs fs' (liftM (m := Action) (ReadsFiles.pathExists p) : ExceptT ε Action Bool) :=
  ⟨.ok (fs.pathExists p), run_pathExists p, by rw [run_pathExists, h]⟩

theorem readText {p : Path} (h : fs'.readText p = fs.readText p) :
    ReadsAlike fs fs' (ReadsFiles.readText (m := Action) p) :=
  ⟨fs.readText p, run_readText p, by rw [run_readText, h]⟩

end ReadsAlike

/-- Whether two file systems have the same text at a path, or both have nothing there. -/
def SameText (fs fs' : FileSystem) (p : Path) : Prop :=
  fs'.pathExists p = fs.pathExists p ∧
    (fs.pathExists p = true → fs'.readText p = fs.readText p)

theorem SameText.refl (fs : FileSystem) (p : Path) : SameText fs fs p := ⟨rfl, fun _ => rfl⟩

end FileSystem

variable {fs fs' : FileSystem}

theorem readsAlike_loadProjectConfig (h : SameText fs fs' ⟨configName⟩) :
    ReadsAlike fs fs' (loadProjectConfig (m := Action) none) := by
  obtain ⟨hexists, hread⟩ := h
  refine .bind (.pathExists hexists) fun b hb => ?_
  obtain rfl : fs.pathExists ⟨configName⟩ = b := Except.ok.inj (Prod.mk.inj hb).1
  cases hp : fs.pathExists ⟨configName⟩ with
  | false => exact .pure _
  | true =>
    have hconfig : ReadsAlike fs fs' (readConfig (m := Action) ⟨configName⟩) :=
      .bind (.adapt _ (.readText (hread hp))) fun _ _ => .ofExcept _
    refine .bind (.pathExists hexists) fun b _ => ?_
    cases b with
    | true => exact hconfig
    | false => exact .bind (.throw _) fun _ _ => hconfig

theorem readsAlike_config (input : Input) (h : SameText fs fs' ⟨configName⟩) :
    ReadsAlike fs fs' (input.config (m := Action)) :=
  .bind (.adapt _ (readsAlike_loadProjectConfig h)) fun _ _ => .pure _

theorem readsAlike_loadProjectDataModel {config : Config} (format : Option FileFormat)
    (h : SameText fs fs' config.schemaPath) :
    ReadsAlike fs fs' (loadProjectDataModel (m := Action) config none format) := by
  obtain ⟨hexists, hread⟩ := h
  have hload (hp : fs.pathExists config.schemaPath = true) (format : FileFormat) :
      ReadsAlike fs fs' (loadDataModelAs (m := Action) config.schemaPath format) :=
    .bind (.adapt _ (.readText (hread hp))) fun _ _ => .ofExcept _
  refine .bind (.pathExists hexists) fun b hb => ?_
  obtain rfl : fs.pathExists config.schemaPath = b := Except.ok.inj (Prod.mk.inj hb).1
  cases hp : fs.pathExists config.schemaPath with
  | false => exact .bind (.throw _) fun _ h => nomatch (Prod.mk.inj h).1
  | true =>
    cases format with
    | some format => exact hload hp format
    | none =>
      change ReadsAlike fs fs' (loadDataModel (m := Action) config.schemaPath)
      unfold loadDataModel
      split
      · exact hload hp _
      · exact .throw _

/-- A schema description that is loaded is there. -/
theorem pathExists_of_loadProjectDataModel {config : Config} {format : Option FileFormat}
    {dm : DataModel} {fs' : FileSystem}
    (h : fs.run (loadProjectDataModel (m := Action) config none format) = (.ok dm, fs')) :
    fs.pathExists config.schemaPath = true := by
  rcases of_run_bind h with ⟨e, -, he⟩ | ⟨b, fs₁, hexists, h⟩
  · cases he
  obtain ⟨hb, -⟩ := Prod.mk.inj hexists
  obtain rfl := Except.ok.inj hb
  change fs.pathExists (config.schemaPath.under none) = true
  by_contra hp
  rw [Bool.eq_false_iff.mpr hp] at h
  cases h

/-- A schema description in JSON is loaded from its file. -/
theorem run_loadProjectDataModel_of_find {config : Config} {text : String} {dm : DataModel}
    (h : fs.find config.schemaPath = .ok (.file (.text text)))
    (hformat : FileFormat.ofPath? config.schemaPath = some .json)
    (hread : Json.read DataModel.read text = .ok dm) :
    fs.run (loadProjectDataModel (m := Action) config none none) = (.ok dm, fs) := by
  have htext : fs.readText config.schemaPath = .ok text := by
    rw [FileSystem.readText, h]
    rfl
  have hread : readDocument FileFormat.json.isYaml DataModel.read text = .ok dm :=
    congrArg (Except.mapError ReadError.json) hread
  have hload : fs.run (loadDataModelAs (m := Action) config.schemaPath .json) = (.ok dm, fs) := by
    unfold loadDataModelAs
    rw [run_bind, run_adapt, run_readText, htext]
    change fs.run (ofExcept ((readDocument _ _ _).mapError _)) = _
    rw [run_ofExcept, hread]
    rfl
  rw [loadProjectDataModel, run_bind, Path.under, run_pathExists, pathExists_of_find h]
  change fs.run (loadDataModel (m := Action) config.schemaPath) = _
  rw [loadDataModel, hformat]
  exact hload

theorem readsAlike_document (input : Input) {config : Config} (skip : Bool)
    (h : SameText fs fs' config.schemaPath) :
    ReadsAlike fs fs' (input.document (m := Action) config skip) :=
  .bind (.adapt _ (readsAlike_loadProjectDataModel input.format h)) fun _ _ => .ofExcept _

/-- What is read leaves no trace, and no other file matters. -/
theorem FileSystem.ReadsAlike.eq {ε α : Type} {x : ExceptT ε Action α} {fs₁ : FileSystem}
    {r : Except ε α} (h : ReadsAlike fs fs' x) (hr : fs.run x = (r, fs₁)) :
    fs₁ = fs ∧ fs'.run x = (r, fs') := by
  obtain ⟨r', hfs, hfs'⟩ := h
  obtain ⟨rfl, rfl⟩ := Prod.mk.inj (hr.symm.trans hfs)
  exact ⟨rfl, hfs'⟩

theorem run_config {input : Input} {fs₁ : FileSystem} {r : Except CommandError Config}
    (h : fs.run (input.config (m := Action)) = (r, fs₁)) : fs₁ = fs :=
  ((readsAlike_config input (.refl fs _)).eq h).1

theorem run_document {input : Input} {config : Config} {skip : Bool} {fs₁ : FileSystem}
    {r : Except CommandError String}
    (h : fs.run (input.document (m := Action) config skip) = (r, fs₁)) : fs₁ = fs :=
  ((readsAlike_document input skip (.refl fs _)).eq h).1

/-! ## Documents without join tables -/

/-- Without join tables the text is a beginning of that with them. -/
theorem render_skipping {o : Options} {dm : DataModel} {t t' : String} (h : o.render dm = .ok t)
    {skip : Bool} (h' : (o.skipping skip).render dm = .ok t') :
    (∃ rest, t = t' ++ rest) ∧ (skip = false → t = t') := by
  cases skip with
  | false =>
    obtain rfl : t = t' := Except.ok.inj (h.symm.trans h')
    exact ⟨⟨"", (String.append_empty).symm⟩, fun _ => rfl⟩
  | true =>
    refine ⟨?_, nofun⟩
    change { o with manyToMany := false }.render dm = .ok t' at h'
    obtain ⟨manyToMany, includeRelationFields, mapToDbSchema, project⟩ := o
    cases manyToMany with
    | false =>
      obtain rfl : t = t' := Except.ok.inj (h.symm.trans h')
      exact ⟨"", (String.append_empty).symm⟩
    | true =>
      obtain ⟨d, hd, -⟩ := render_eq_ok_iff.mp h'
      obtain ⟨rs, hrs, -⟩ := document_eq_ok_iff.mp hd
      have hrender := render_of_manyToMany h' hrs
      rw [h] at hrender
      cases hjs : (rs.filterMap Relation.manyToMany?).mapM
          (Options.joinTable ⟨true, includeRelationFields, mapToDbSchema, project⟩) with
      | error e =>
        have hfail := hrender.trans (congrArg _ hjs)
        cases hfail
      | ok js =>
        have hok := hrender.trans (congrArg _ hjs)
        exact ⟨_, Except.ok.inj hok⟩

/-- The text that a command makes is the document of the schema description that it loads. -/
theorem run_document_eq_ok_iff {input : Input} {config : Config} {skip : Bool} {t : String} :
    fs.run (input.document (m := Action) config skip) = (.ok t, fs) ↔
      ∃ dm, fs.run (loadProjectDataModel (m := Action) config none input.format) = (.ok dm, fs) ∧
        (config.dbml.skipping skip).render dm = .ok t := by
  obtain ⟨r, hr, -⟩ := readsAlike_loadProjectDataModel input.format (.refl fs config.schemaPath)
  rw [Input.document, run_bind, run_adapt, hr]
  cases r with
  | error e => exact ⟨nofun, fun ⟨_, h, _⟩ => nomatch h⟩
  | ok dm =>
    change (fs.run (ofExcept _) = _) ↔ _
    rw [run_ofExcept, Prod.mk.injEq, mapError_eq_ok_iff]
    constructor
    · rintro ⟨h, -⟩
      exact ⟨dm, rfl, h⟩
    · rintro ⟨dm', hdm, h⟩
      obtain rfl := Except.ok.inj (Prod.mk.inj hdm).1
      exact ⟨h, rfl⟩

end Dbml
