import Dbml.Proofs.FileSystem.Action

/-!
# File systems that agree off a location

A path leads to the same in two file systems that agree off a location, if it does not come by
that (`AgreeOff.find`). An action that takes such paths only leaves what is there as it is, and
does the same in both, which agree off the location afterwards too (`Ignores`). Making the
directories of such a path is one (`Ignores.createDirectories`), since they are all on its way.
-/

namespace Dbml.FileSystem

open Dbml.Path (leads)

variable {ε ε' α β : Type} {fs fs' : FileSystem} {d k l l' : Location} {p q : Path}
  {c : Component} {cs : List Component}

/-! ## What a path comes by -/

/-- The locations that a path comes by if it is walked from a directory. -/
def visited (d : Location) (p : Path) : List Location :=
  p.steps.scanl Component.next (if p.isAbsolute then [] else d)

theorem mem_scanl_next_self (cs : List Component) (k : Location) :
    k ∈ cs.scanl Component.next k := by
  cases cs <;> simp

/-- Steps that do not lead away come by nothing else. -/
theorem mem_scanl_next_filter_iff (parts : List (List Char)) (k : Location) :
    l ∈ ((parts.map Path.stepOf).filter leads).scanl Component.next k ↔
      l ∈ (parts.map Path.stepOf).scanl Component.next k := by
  induction parts generalizing k with
  | nil => rfl
  | cons part parts ih =>
    rw [List.map_cons, List.filter_cons]
    split
    · rw [List.scanl_cons, List.scanl_cons, List.mem_cons, List.mem_cons, ih]
    · rename_i hstay
      have hhere : Path.stepOf part = .here := by
        unfold Path.stepOf at hstay ⊢
        split at hstay
        · rw [if_pos ‹_›]
        · split at hstay <;> exact absurd rfl hstay
      rw [ih, hhere, List.scanl_cons, List.mem_cons, Component.next]
      exact ⟨.inr, fun h => h.elim (fun h => h ▸ mem_scanl_next_self _ _) id⟩

theorem scanl_next_subset {cs' : List Component} (h : cs <+: cs') (k : Location) :
    cs.scanl Component.next k ⊆ cs'.scanl Component.next k := by
  obtain ⟨rest, rfl⟩ := h
  rw [List.scanl_append]
  exact List.subset_append_left _ _

theorem visited_subset (habs : q.isAbsolute = p.isAbsolute)
    (h : q.steps.filter leads <+: p.steps.filter leads) : visited d q ⊆ visited d p := by
  intro l hl
  rw [visited, Path.steps, ← mem_scanl_next_filter_iff] at hl ⊢
  rw [← habs]
  exact scanl_next_subset h _ hl

theorem foldl_next_mem_scanl (cs : List Component) (k : Location) :
    cs.foldl Component.next k ∈ cs.scanl Component.next k := by
  induction cs generalizing k with
  | nil => simp
  | cons c cs ih =>
    rw [List.foldl_cons, List.scanl_cons]
    exact List.mem_cons_of_mem _ (ih _)

theorem place_mem_visited (fs : FileSystem) (p : Path) : fs.place p ∈ visited fs.current p :=
  foldl_next_mem_scanl p.steps (fs.start p)

/-- What a path names last is on its way, whether or not it is there. -/
theorem mem_visited_of_locateLast {name : List Char} (h : fs.locateLast p = .ok (k, .normal name)) :
    name :: k ∈ visited fs.current p := by
  obtain ⟨-, houter, -, hlast⟩ := locateLast_eq_ok_iff.mp h
  obtain ⟨n, hsteps, -⟩ := Path.steps_eq hlast
  obtain rfl := foldlM_step_eq_foldl houter
  have hmem := foldl_next_mem_scanl (p.lastStep.1 ++ [.normal name]) (fs.start p)
  rw [List.foldl_append] at hmem
  refine scanl_next_subset ?_ _ hmem
  rw [hsteps]
  exact (List.prefix_append_right_inj _).mpr (List.prefix_append [_] _)

/-! ## Agreement -/

/-- Whether nothing differs but what is at a location. -/
structure AgreeOff (l : Location) (fs fs' : FileSystem) : Prop where
  current : fs'.current = fs.current
  at? : ∀ l', l' ≠ l → fs'.at? l' = fs.at? l'

namespace AgreeOff

theorem symm (h : AgreeOff l fs fs') : AgreeOff l fs' fs :=
  ⟨h.current.symm, fun l' hl' => (h.at? l' hl').symm⟩

theorem start (h : AgreeOff l fs fs') (p : Path) : fs'.start p = fs.start p := by
  rw [FileSystem.start, FileSystem.start, h.current]

theorem requireDirectory (h : AgreeOff l fs fs') (hk : k ≠ l) :
    fs'.requireDirectory k = fs.requireDirectory k := by
  unfold FileSystem.requireDirectory
  rw [h.at? k hk]

theorem lookUp (h : AgreeOff l fs fs') {name : List Char} (hk : name :: k ≠ l) :
    fs'.lookUp k name = fs.lookUp k name := by
  unfold FileSystem.lookUp
  rw [h.at? _ hk]

theorem step (h : AgreeOff l fs fs') (hk : k ≠ l) (hc : c.next k ≠ l) :
    fs'.step k c = fs.step k c := by
  unfold FileSystem.step
  rw [h.requireDirectory hk]
  cases c with
  | normal name => simp only [h.lookUp (show name :: k ≠ l from hc)]
  | root | here | up => rfl

/-- A walk is the same if it does not come by the location. -/
theorem foldlM_step (h : AgreeOff l fs fs') (hcs : l ∉ cs.scanl Component.next k) :
    cs.foldlM fs'.step k = cs.foldlM fs.step k := by
  induction cs generalizing k with
  | nil => rfl
  | cons c cs ih =>
    rw [List.scanl_cons, List.mem_cons, not_or] at hcs
    obtain ⟨hk, hcs⟩ := hcs
    have hnext : c.next k ≠ l := fun heq => hcs (heq ▸ mem_scanl_next_self _ _)
    rw [List.foldlM_cons, List.foldlM_cons, h.step (Ne.symm hk) hnext]
    cases hstep : fs.step k c with
    | error e => rfl
    | ok k₁ =>
      obtain rfl := (step_eq_ok_iff.mp hstep).2.1
      exact ih hcs

theorem locate (h : AgreeOff l fs fs') (hp : l ∉ visited fs.current p) :
    fs'.locate p = fs.locate p := by
  unfold FileSystem.locate
  rw [h.start, h.foldlM_step (k := fs.start p) hp]

theorem find (h : AgreeOff l fs fs') (hp : l ∉ visited fs.current p) : fs'.find p = fs.find p := by
  unfold FileSystem.find
  rw [h.locate hp]
  cases hlocate : fs.locate p with
  | error e => rfl
  | ok k =>
    obtain rfl := place_of_locate hlocate
    have hplace : fs.place p ≠ l := fun heq => hp (heq ▸ place_mem_visited fs p)
    simp only [bind, Except.bind, h.at? _ hplace]

theorem pathExists (h : AgreeOff l fs fs') (hp : l ∉ visited fs.current p) :
    fs'.pathExists p = fs.pathExists p := by
  rw [FileSystem.pathExists, FileSystem.pathExists, h.find hp]

theorem isDirectory (h : AgreeOff l fs fs') (hp : l ∉ visited fs.current p) :
    fs'.isDirectory p = fs.isDirectory p := by
  unfold FileSystem.isDirectory
  rw [h.find hp]

theorem locateLast (h : AgreeOff l fs fs') (hp : l ∉ visited fs.current p) :
    fs'.locateLast p = fs.locateLast p := by
  have houter : l ∉ p.lastStep.1.scanl Component.next (fs.start p) := fun hl =>
    hp (scanl_next_subset p.fst_lastStep_isPrefix _ hl)
  unfold FileSystem.locateLast
  generalize p.lastStep = steps at houter ⊢
  obtain ⟨outer, last⟩ := steps
  simp only [h.start, h.foldlM_step houter]
  cases hwalk : outer.foldlM fs.step (fs.start p) with
  | error e => rfl
  | ok k =>
    obtain rfl := foldlM_step_eq_foldl hwalk
    have hk : outer.foldl Component.next (fs.start p) ≠ l := fun heq =>
      houter (heq ▸ foldl_next_mem_scanl outer (fs.start p))
    simp only [bind, Except.bind, h.requireDirectory hk]

theorem locateFile (h : AgreeOff l fs fs') (hp : l ∉ visited fs.current p) :
    fs'.locateFile p = fs.locateFile p := by
  unfold FileSystem.locateFile
  rw [h.locateLast hp]
  cases hlast : fs.locateLast p with
  | error e => rfl
  | ok last =>
    obtain ⟨k, c⟩ := last
    cases c with
    | normal name =>
      have hk : name :: k ≠ l := fun heq => hp (heq ▸ mem_visited_of_locateLast hlast)
      simp only [bind, Except.bind, h.lookUp hk]
    | root | here | up => rfl

theorem set {e : Entry} (h : AgreeOff l fs fs') (hl' : fs.CanHold l' e) (hl'' : fs'.CanHold l' e) :
    AgreeOff l (fs.set l' e) (fs'.set l' e) where
  current := by rw [current_set, current_set, h.current]
  at? k hk := by rw [at?_set hl', at?_set hl'', h.at? k hk]

/-- Whether two changes put one entry at one other location, or fail with one error. -/
def PutsAlike (l : Location) (fs fs' : FileSystem) (r r' : Except FileError FileSystem) : Prop :=
  (∃ e, r = .error e ∧ r' = .error e) ∨
    ∃ k entry, k ≠ l ∧ fs.CanHold k entry ∧ fs'.CanHold k entry ∧
      r = .ok (fs.set k entry) ∧ r' = .ok (fs'.set k entry)

theorem write (h : AgreeOff l fs fs') (hp : l ∉ visited fs.current p) (content : Content) :
    PutsAlike l fs fs' (fs.write p content) (fs'.write p content) := by
  have hlocate := h.locateFile hp
  unfold FileSystem.write
  cases hk : fs.locateFile p with
  | error e =>
    rw [hlocate, hk]
    exact .inl ⟨e, rfl, rfl⟩
  | ok k =>
    rw [hlocate, hk]
    have hne : k ≠ l := by
      obtain ⟨outer, name, hlast, -, -, -, rfl⟩ := locateFile_eq_ok_iff.mp hk
      exact fun heq => hp (heq ▸ mem_visited_of_locateLast hlast)
    exact .inr ⟨k, _, hne, canHold_of_locateFile hk content,
      canHold_of_locateFile (hlocate.trans hk) content, rfl, rfl⟩

theorem createDirectory (h : AgreeOff l fs fs') (hp : l ∉ visited fs.current p) :
    PutsAlike l fs fs' (fs.createDirectory p) (fs'.createDirectory p) := by
  unfold FileSystem.createDirectory
  rw [h.locateLast hp]
  cases hlast : fs.locateLast p with
  | error e => exact .inl ⟨e, rfl, rfl⟩
  | ok last =>
    obtain ⟨k, c⟩ := last
    cases c with
    | normal name =>
      have hk : name :: k ≠ l := fun heq => hp (heq ▸ mem_visited_of_locateLast hlast)
      simp only [bind, Except.bind, h.lookUp hk]
      cases hname : fs.lookUp k name with
      | error e => exact .inl ⟨e, rfl, rfl⟩
      | ok entry? =>
        cases entry? with
        | some entry => exact .inl ⟨.alreadyExists, rfl, rfl⟩
        | none =>
          have hhold (fs : FileSystem) (h : fs.locateLast p = .ok (k, .normal name)) :
              fs.CanHold (name :: k) .directory :=
            ⟨List.cons_ne_nil _ _, (locateLast_eq_ok_iff.mp h).2.2.1, fun _ => rfl⟩
          exact .inr ⟨_, _, hk, hhold fs hlast, hhold fs' ((h.locateLast hp).trans hlast), rfl, rfl⟩
    | root | here | up => exact .inl ⟨.alreadyExists, rfl, rfl⟩

end AgreeOff

/-! ## Actions -/

/-- Whether an action that starts from a directory has no use for a location: it leaves what is
there, and does the same in file systems that agree off it. -/
structure Ignores (d l : Location) (x : ExceptT ε Action α) : Prop where
  keeps : ∀ fs : FileSystem, fs.current = d →
    (fs.run x).2.current = d ∧ (fs.run x).2.at? l = fs.at? l
  alike : ∀ fs fs', fs.current = d → AgreeOff l fs fs' →
    (fs'.run x).1 = (fs.run x).1 ∧ AgreeOff l (fs.run x).2 (fs'.run x).2

namespace Ignores

theorem of_run_eq {x : ExceptT ε Action α} {f : FileSystem → Except ε α}
    (hrun : ∀ fs, fs.run x = (f fs, fs))
    (hf : ∀ fs fs', fs.current = d → AgreeOff l fs fs' → f fs' = f fs) : Ignores d l x where
  keeps fs hd := by
    rw [hrun]
    exact ⟨hd, rfl⟩
  alike fs fs' hd h := by
    rw [hrun, hrun]
    exact ⟨hf fs fs' hd h, h⟩

theorem pure (a : α) : Ignores d l (Pure.pure a : ExceptT ε Action α) :=
  of_run_eq (f := fun _ => .ok a) (fun _ => rfl) fun _ _ _ _ => rfl

theorem throw (e : ε) : Ignores d l (MonadExcept.throw e : ExceptT ε Action α) :=
  of_run_eq (f := fun _ => .error e) (fun _ => rfl) fun _ _ _ _ => rfl

theorem pathExists (hp : l ∉ visited d p) : Ignores d l
    (liftM (m := Action) (ReadsFiles.pathExists p) : ExceptT ε Action Bool) :=
  of_run_eq (fun fs => run_pathExists p) fun fs fs' hd h => by rw [h.pathExists (hd ▸ hp)]

theorem isDirectory (hp : l ∉ visited d p) : Ignores d l
    (liftM (m := Action) (ReadsFiles.isDirectory p) : ExceptT ε Action Bool) :=
  of_run_eq (fun fs => run_isDirectory p) fun fs fs' hd h => by rw [h.isDirectory (hd ▸ hp)]

theorem change {f : FileSystem → Except FileError FileSystem}
    (hf : ∀ fs fs', fs.current = d → AgreeOff l fs fs' →
      AgreeOff.PutsAlike l fs fs' (f fs) (f fs')) :
    Ignores d l (FileSystem.change f) where
  keeps fs hd := by
    rw [run_change]
    rcases hf fs fs hd ⟨rfl, fun _ _ => rfl⟩ with ⟨e, he, -⟩ | ⟨k, entry, hk, hhold, -, hset, -⟩
    · rw [he]
      exact ⟨hd, rfl⟩
    · rw [hset]
      exact ⟨(current_set ..).trans hd, by rw [at?_set hhold, if_neg hk.symm]⟩
  alike fs fs' hd h := by
    rw [run_change, run_change]
    rcases hf fs fs' hd h with ⟨e, he, he'⟩ | ⟨k, entry, -, hhold, hhold', hset, hset'⟩
    · rw [he, he']
      exact ⟨rfl, h⟩
    · rw [hset, hset']
      exact ⟨rfl, h.set hhold hhold'⟩

theorem writeText (hp : l ∉ visited d p) (text : String) :
    Ignores d l (WritesFiles.writeText (m := Action) p text) :=
  change fun _ _ hd h => h.write (hd ▸ hp) (.text text)

theorem createDirectory (hp : l ∉ visited d p) :
    Ignores d l (WritesFiles.createDirectory (m := Action) p) :=
  change fun _ _ hd h => h.createDirectory (hd ▸ hp)

theorem adapt {x : ExceptT ε Action α} (f : ε → ε') (hx : Ignores d l x) :
    Ignores d l (x.adapt f) where
  keeps fs hd := hx.keeps fs hd
  alike fs fs' hd h := by
    obtain ⟨hanswer, hagree⟩ := hx.alike fs fs' hd h
    rw [run_adapt, run_adapt, hanswer]
    exact ⟨rfl, hagree⟩

/-- One action after another, whichever that is for the answer of the first. -/
theorem following {x : ExceptT ε Action α} {y : ExceptT ε' Action β} {f : α → ExceptT ε' Action β}
    {g : ε → ExceptT ε' Action β} (hx : Ignores d l x) (hf : ∀ a, Ignores d l (f a))
    (hg : ∀ e, Ignores d l (g e))
    (hok : ∀ (fs fs₁ : FileSystem) a, fs.run x = (.ok a, fs₁) → fs.run y = fs₁.run (f a))
    (herror : ∀ (fs fs₁ : FileSystem) e, fs.run x = (.error e, fs₁) → fs.run y = fs₁.run (g e)) :
    Ignores d l y := by
  have hnext (r : Except ε α) : ∃ z, Ignores d l z ∧
      ∀ fs fs₁ : FileSystem, fs.run x = (r, fs₁) → fs.run y = fs₁.run z := by
    cases r with
    | ok a => exact ⟨f a, hf a, fun fs fs₁ => hok fs fs₁ a⟩
    | error e => exact ⟨g e, hg e, fun fs fs₁ => herror fs fs₁ e⟩
  refine ⟨fun fs hd => ?_, fun fs fs' hd h => ?_⟩
  · obtain ⟨hd₁, hat₁⟩ := hx.keeps fs hd
    obtain ⟨z, hz, hrun⟩ := hnext (fs.run x).1
    obtain ⟨hd₂, hat₂⟩ := hz.keeps _ hd₁
    rw [hrun fs _ rfl]
    exact ⟨hd₂, hat₂.trans hat₁⟩
  · obtain ⟨hanswer, hagree⟩ := hx.alike fs fs' hd h
    obtain ⟨z, hz, hrun⟩ := hnext (fs.run x).1
    rw [hrun fs _ rfl, hrun fs' (fs'.run x).2 (by rw [← hanswer])]
    exact hz.alike _ _ (hx.keeps fs hd).1 hagree

theorem bind {x : ExceptT ε Action α} {f : α → ExceptT ε Action β} (hx : Ignores d l x)
    (hf : ∀ a, Ignores d l (f a)) : Ignores d l (x >>= f) :=
  hx.following hf .throw (fun fs fs₁ a h => by rw [run_bind, h])
    fun fs fs₁ e h => by rw [run_bind, h, run_throw]

theorem tryCatch {x : ExceptT ε Action α} {handle : ε → ExceptT ε Action α}
    (hx : Ignores d l x) (hhandle : ∀ e, Ignores d l (handle e)) :
    Ignores d l (MonadExcept.tryCatch x handle) :=
  hx.following .pure hhandle (fun fs fs₁ a h => by rw [run_tryCatch, h, run_pure])
    fun fs fs₁ e h => by rw [run_tryCatch, h]

theorem ensureDirectory (hp : l ∉ visited d p) :
    Ignores d l (Dbml.ensureDirectory (m := Action) p) := by
  refine .tryCatch (.createDirectory hp) fun e => .bind (.isDirectory hp) fun b => ?_
  cases b with
  | true => exact .pure ()
  | false => exact .throw e

theorem createDirectoriesOf {ps : List Path} (hps : ∀ p ∈ ps, l ∉ visited d p) :
    Ignores d l (Dbml.createDirectoriesOf (m := Action) ps) := by
  induction ps with
  | nil => exact .pure ()
  | cons p outer ih =>
    obtain ⟨hp, houter⟩ := List.forall_mem_cons.mp hps
    refine .tryCatch (.createDirectory hp) fun e => ?_
    by_cases he : e = .notFound
    · rw [if_pos he]
      exact .bind (ih houter) fun _ => .ensureDirectory hp
    · rw [if_neg he]
      exact .bind (.pure ()) fun _ => .ensureDirectory hp

/-- The directories that lead to a path are on its way. -/
theorem createDirectories (hp : l ∉ visited d p) :
    Ignores d l (Dbml.createDirectories (m := Action) p) := by
  refine createDirectoriesOf fun q hq hl => hp ?_
  obtain ⟨habs, hsteps⟩ := Path.of_mem_directories hq
  exact visited_subset habs hsteps hl

end Ignores

end Dbml.FileSystem
