import Dbml.Proofs.FileSystem.Walk

/-!
# Changes of file systems

A file is written where its path leads afterwards, and no directory was there before
(`write_eq_ok`). A directory is made where nothing was, and its path leads there
(`createDirectory_eq_ok`). Either result extends what was there.
-/

namespace Dbml.FileSystem

variable {fs fs' : FileSystem} {l : Location} {p : Path}

theorem locateLast_eq_ok_iff {c : Component} : fs.locateLast p = .ok (l, c) ↔
    checkPath p = .ok () ∧ p.lastStep.1.foldlM fs.step (fs.start p) = .ok l ∧
      fs.at? l = some .directory ∧ p.lastStep.2 = c := by
  simp only [locateLast, bind_eq_ok_iff, requireDirectory_eq_ok_iff]
  constructor
  · rintro ⟨_, hcheck, l', hl', _, hdir, h⟩
    obtain ⟨rfl, rfl⟩ := Prod.mk.inj (Except.ok.inj h)
    exact ⟨hcheck, hl', hdir, rfl⟩
  · rintro ⟨hcheck, hl', hdir, rfl⟩
    exact ⟨(), hcheck, l, hl', (), hdir, rfl⟩

/-- Where the last step of a path is a name, the path leads to what has that name, by any
slashes behind it only to a directory. -/
theorem locate_of_locateLast {name : List Char} (h : fs.locateLast p = .ok (l, .normal name))
    (hsize : (String.ofList name).utf8ByteSize ≤ longestName)
    (he : fs.at? (name :: l) = some .directory ∨
      p.endsInSlash = false ∧ (fs.at? (name :: l)).isSome) :
    fs.locate p = .ok (name :: l) := by
  obtain ⟨hcheck, houter, hdir, hlast⟩ := locateLast_eq_ok_iff.mp h
  obtain ⟨n, hsteps, hn⟩ := Path.steps_eq hlast
  have hsome : (fs.at? (name :: l)).isSome := by
    rcases he with he | he
    · rw [he, Option.isSome_some]
    · exact he.2
  have hname : fs.step l (.normal name) = .ok (name :: l) :=
    step_eq_ok_iff.mpr ⟨hdir, rfl, fun name' hname' => by
      cases hname'
      exact ⟨hsize, hsome⟩⟩
  have hslashes : (List.replicate n Component.here).foldlM fs.step (name :: l) =
      .ok (name :: l) := by
    rcases he with he | he
    · have hstay : fs.step (name :: l) .here = .ok (name :: l) :=
        step_eq_ok_iff.mpr ⟨he, rfl, nofun⟩
      clear hn hsteps
      induction n with
      | zero => rfl
      | succ n ih =>
        rw [List.replicate_succ, List.foldlM_cons, hstay]
        exact ih
    · rw [hn he.1]
      rfl
  rw [locate_eq_ok_iff, hsteps, List.foldlM_append, houter]
  refine ⟨hcheck, ?_⟩
  change List.foldlM fs.step l _ = _
  rw [List.foldlM_cons, hname]
  exact hslashes

theorem Extends.locateLast {c : Component} (h : Extends fs fs')
    (hl : fs.locateLast p = .ok (l, c)) : fs'.locateLast p = .ok (l, c) := by
  obtain ⟨hcheck, houter, hdir, hlast⟩ := locateLast_eq_ok_iff.mp hl
  rw [locateLast_eq_ok_iff, h.start]
  exact ⟨hcheck, h.foldlM_step houter, h.directory l hdir, hlast⟩

/-! ## Writing -/

theorem locateFile_eq_ok_iff : fs.locateFile p = .ok l ↔
    ∃ outer name, fs.locateLast p = .ok (outer, .normal name) ∧ p.endsInSlash = false ∧
      (String.ofList name).utf8ByteSize ≤ longestName ∧
      fs.at? (name :: outer) ≠ some .directory ∧ name :: outer = l := by
  unfold locateFile
  rw [bind_eq_ok_iff]
  constructor
  · rintro ⟨⟨outer, c⟩, hlast, h⟩
    cases c with
    | normal name =>
      cases hslash : p.endsInSlash with
      | true =>
        rw [hslash] at h
        cases h
      | false =>
        rw [hslash] at h
        change (fs.lookUp outer name >>= fun e => _) = _ at h
        obtain ⟨e, he, h⟩ := bind_eq_ok_iff.mp h
        obtain ⟨hsize, rfl⟩ := lookUp_eq_ok_iff.mp he
        by_cases hdir : fs.at? (name :: outer) = some .directory
        · rw [hdir] at h
          cases h
        · rw [if_neg hdir] at h
          exact ⟨outer, name, hlast, rfl, hsize, hdir, Except.ok.inj h⟩
    | root | here | up => cases h
  · rintro ⟨outer, name, hlast, hslash, hsize, hdir, rfl⟩
    refine ⟨(outer, .normal name), hlast, ?_⟩
    rw [hslash]
    change (fs.lookUp outer name >>= fun e => _) = _
    rw [lookUp_eq_ok_iff.mpr ⟨hsize, rfl⟩]
    change (if fs.at? (name :: outer) = some .directory then _ else _) = _
    rw [if_neg hdir]
    rfl

theorem canHold_of_locateFile (h : fs.locateFile p = .ok l) (c : Content) :
    fs.CanHold l (.file c) := by
  obtain ⟨outer, name, hlast, -, -, hdir, rfl⟩ := locateFile_eq_ok_iff.mp h
  exact ⟨List.cons_ne_nil _ _, (locateLast_eq_ok_iff.mp hlast).2.2.1, fun h => absurd h hdir⟩

theorem place_of_locateFile (h : fs.locateFile p = .ok l) : fs.place p = l := by
  obtain ⟨outer, name, hlast, hslash, -, -, rfl⟩ := locateFile_eq_ok_iff.mp h
  obtain ⟨-, houter, -, hstep⟩ := locateLast_eq_ok_iff.mp hlast
  obtain ⟨n, hsteps, hn⟩ := Path.steps_eq hstep
  rw [place, hsteps, hn hslash, List.foldl_append, foldlM_step_eq_foldl houter]
  rfl

theorem write_eq_ok_iff {c : Content} : fs.write p c = .ok fs' ↔
    ∃ l, fs.locateFile p = .ok l ∧ fs.set l (.file c) = fs' := by
  simp only [write, bind_eq_ok_iff]
  exact exists_congr fun l => and_congr_right fun _ =>
    ⟨fun h => Except.ok.inj h, fun h => congrArg Except.ok h⟩

/-- A file is written to the place of its path, and no directory is lost. -/
theorem extends_write {c : Content} (h : fs.write p c = .ok fs') : Extends fs fs' := by
  obtain ⟨l, hl, rfl⟩ := write_eq_ok_iff.mp h
  exact extends_set_file (canHold_of_locateFile hl c)

/-- What is written is at the place of its path, to which the path leads now. -/
theorem write_eq_ok {c : Content} (h : fs.write p c = .ok fs') : ∃ l, fs.CanHold l (.file c) ∧
    fs.set l (.file c) = fs' ∧ fs'.locate p = .ok l ∧ fs'.place p = l := by
  have hext := extends_write h
  obtain ⟨l, hl, rfl⟩ := write_eq_ok_iff.mp h
  have hhold := canHold_of_locateFile hl c
  have hat := at?_set_self hhold
  obtain ⟨outer, name, hlast, hslash, hsize, -, rfl⟩ := locateFile_eq_ok_iff.mp hl
  have hloc := locate_of_locateLast (hext.locateLast hlast) hsize
    (.inr ⟨hslash, by rw [hat, Option.isSome_some]⟩)
  exact ⟨name :: outer, hhold, rfl, hloc, place_of_locate hloc⟩

/-- A file that is written is found by its path. -/
theorem find_write {c : Content} (h : fs.write p c = .ok fs') : fs'.find p = .ok (.file c) := by
  obtain ⟨l, hhold, rfl, hloc, hplace⟩ := write_eq_ok h
  rw [find_eq_ok_iff, hplace]
  exact ⟨hloc, at?_set_self hhold⟩

/-- Only what the file at the place of the path holds is changed. -/
theorem file?_write {c : Content} (h : fs.write p c = .ok fs') (l : Location) :
    fs'.file? l = if l = fs'.place p then some c else fs.file? l := by
  obtain ⟨l', hhold, rfl, -, hplace⟩ := write_eq_ok h
  rw [hplace, file?_set_file hhold]

/-- What is written once more is there already. -/
theorem write_again {c : Content} (h : fs.write p c = .ok fs') : fs'.write p c = .ok fs' := by
  have hext := extends_write h
  obtain ⟨l, hl, rfl⟩ := write_eq_ok_iff.mp h
  have hat := at?_set_self (canHold_of_locateFile hl c)
  obtain ⟨outer, name, hlast, hslash, hsize, -, rfl⟩ := locateFile_eq_ok_iff.mp hl
  refine write_eq_ok_iff.mpr ⟨name :: outer, ?_, set_eq_self hat⟩
  refine locateFile_eq_ok_iff.mpr ⟨outer, name, hext.locateLast hlast, hslash, hsize, ?_, rfl⟩
  rw [hat]
  exact nofun

/-! ## Making directories -/

theorem createDirectory_eq_ok_iff : fs.createDirectory p = .ok fs' ↔
    ∃ outer name, fs.locateLast p = .ok (outer, .normal name) ∧
      (String.ofList name).utf8ByteSize ≤ longestName ∧ fs.at? (name :: outer) = none ∧
      fs.set (name :: outer) .directory = fs' := by
  unfold createDirectory
  rw [bind_eq_ok_iff]
  constructor
  · rintro ⟨⟨outer, c⟩, hlast, h⟩
    cases c with
    | normal name =>
      obtain ⟨e, he, h⟩ := bind_eq_ok_iff.mp h
      obtain ⟨hsize, rfl⟩ := lookUp_eq_ok_iff.mp he
      cases hat : fs.at? (name :: outer) with
      | none =>
        rw [hat] at h
        exact ⟨outer, name, hlast, hsize, hat, Except.ok.inj h⟩
      | some e =>
        rw [hat] at h
        cases h
    | root | here | up => cases h
  · rintro ⟨outer, name, hlast, hsize, hat, rfl⟩
    refine ⟨(outer, .normal name), hlast, ?_⟩
    change (fs.lookUp outer name >>= fun e => _) = _
    rw [lookUp_eq_ok_iff.mpr ⟨hsize, rfl⟩, hat]
    rfl

/-- A directory that is made is one, and nothing else is changed. -/
theorem createDirectory_eq_ok (h : fs.createDirectory p = .ok fs') :
    Extends fs fs' ∧ fs'.file? = fs.file? ∧ fs'.isDirectory p = true := by
  obtain ⟨outer, name, hlast, hsize, hat, rfl⟩ := createDirectory_eq_ok_iff.mp h
  have hhold : fs.CanHold (name :: outer) .directory :=
    ⟨List.cons_ne_nil _ _, (locateLast_eq_ok_iff.mp hlast).2.2.1, fun _ => rfl⟩
  have hext := extends_set_directory hhold hat
  have hself := at?_set_self hhold
  have hnone : fs.file? (name :: outer) = none := by rw [file?, hat]
  have hloc := locate_of_locateLast (hext.locateLast hlast) hsize (.inl hself)
  refine ⟨hext, funext fun l => file?_set_directory hhold hnone l, ?_⟩
  rw [isDirectory_iff, find_eq_ok_iff, place_of_locate hloc]
  exact ⟨hloc, hself⟩

end Dbml.FileSystem
