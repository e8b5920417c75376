import Dbml.Path
import Mathlib.Data.List.TakeWhile

/-!
# Paths

A path to be made or written names its last step, which only slashes may follow
(`Path.steps_eq`). A path has a file name iff it ends in that name, and then only slashes and
points between them follow (`Path.fileName?_eq_some_iff`). That is the same name from whatever
path it is taken (`Path.EndsIn.join`). The directories that a path needs are on its way
(`Path.of_mem_directories`).
-/

namespace Dbml.Path

variable {p q : Path} {part name : List Char}

/-! ## Parts -/

theorem splitSlashes_eq_splitOn (cs : List Char) : splitSlashes cs = cs.splitOn '/' := by
  induction cs with
  | nil => rfl
  | cons c cs ih =>
    obtain ⟨part, parts, hcs⟩ := List.exists_cons_of_ne_nil (List.splitOn_ne_nil '/' cs)
    rw [splitSlashes, ih, List.splitOn_cons_eq_if_modifyHead]
    by_cases hc : c = '/' <;> simp [hc, hcs]

theorem splitSlashes_ne_nil (cs : List Char) : splitSlashes cs ≠ [] := by
  rw [splitSlashes_eq_splitOn]
  exact List.splitOn_ne_nil '/' cs

theorem splitSlashes_cons {c : Char} (h : c ≠ '/') (cs : List Char) :
    ∃ part parts, splitSlashes cs = part :: parts ∧
      splitSlashes (c :: cs) = (c :: part) :: parts := by
  obtain ⟨part, parts, hcs⟩ := List.exists_cons_of_ne_nil (splitSlashes_ne_nil cs)
  exact ⟨part, parts, hcs, by rw [splitSlashes, if_neg h, hcs]⟩

theorem slash_not_mem_of_mem_splitSlashes {cs : List Char} (h : part ∈ splitSlashes cs) :
    '/' ∉ part := by
  induction cs generalizing part with
  | nil => simp_all [splitSlashes]
  | cons c cs ih =>
    by_cases hc : c = '/'
    · rw [splitSlashes, if_pos hc] at h
      rcases List.mem_cons.mp h with rfl | h
      · exact List.not_mem_nil
      · exact ih h
    · obtain ⟨first, rest, hcs, heq⟩ := splitSlashes_cons hc cs
      rw [heq] at h
      rcases List.mem_cons.mp h with rfl | h
      · have hfirst := ih (hcs ▸ List.mem_cons_self)
        simp [hfirst, Ne.symm hc]
      · exact ih (hcs ▸ List.mem_cons_of_mem _ h)

/-- The parts of a text and the slashes between them are all of it. -/
theorem intercalate_splitSlashes (cs : List Char) : ['/'].intercalate (splitSlashes cs) = cs := by
  rw [splitSlashes_eq_splitOn, List.intercalate_splitOn]

/-- Whether what follows a text is a part of its own: nothing stands before it, or a slash. -/
def SetsOff (before : List Char) : Prop := before = [] ∨ ∃ outer, before = outer ++ ['/']

theorem SetsOff.append {cs ds : List Char} (hc : SetsOff cs) (hd : SetsOff ds) :
    SetsOff (cs ++ ds) := by
  rcases hd with rfl | ⟨outer, rfl⟩
  · rwa [List.append_nil]
  · exact .inr ⟨cs ++ outer, (List.append_assoc ..).symm⟩

theorem intercalate_cons (part : List Char) (rest : List (List Char)) :
    ['/'].intercalate (part :: rest) = part ++ rest.flatMap ('/' :: ·) := by
  induction rest generalizing part with
  | nil => simp
  | cons next rest ih =>
    rw [List.intercalate_cons_cons, ih]
    simp

theorem exists_intercalate_append (outer : List (List Char)) (part : List Char)
    (rest : List (List Char)) : ∃ before, SetsOff before ∧
      ['/'].intercalate (outer ++ part :: rest) = before ++ (part ++ rest.flatMap ('/' :: ·)) := by
  induction outer with
  | nil => exact ⟨[], .inl rfl, intercalate_cons part rest⟩
  | cons first outer ih =>
    obtain ⟨before, hbefore, heq⟩ := ih
    refine ⟨first ++ ['/'] ++ before, .append (.inr ⟨first, rfl⟩) hbefore, ?_⟩
    rw [List.cons_append, List.intercalate_cons_of_ne_nil (by simp), heq,
      List.append_assoc _ before]

/-! ## The last step -/

/-- The last part is empty only after a slash. -/
theorem getLast?_of_splitSlashes {cs : List Char} (hcs : cs ≠ [])
    (h : (splitSlashes cs).getLast? = some []) : cs.getLast? = some '/' := by
  obtain ⟨outer, houter⟩ := List.getLast?_eq_some_iff.mp h
  obtain ⟨before, hbefore, heq⟩ := exists_intercalate_append outer [] []
  have htext : cs = before := by
    rw [← intercalate_splitSlashes cs, houter, heq]
    simp
  rcases hbefore with rfl | ⟨cs', rfl⟩
  · exact absurd htext hcs
  · rw [htext, List.getLast?_concat]

/-- Behind the last part that is not empty there is one for each slash. -/
theorem exists_parts_eq {outer : List (List Char)}
    (h : p.parts.reverse.dropWhile (·.isEmpty) = part :: outer) :
    ∃ n, p.parts = outer.reverse ++ part :: List.replicate n [] ∧
      (p.endsInSlash = false → n = 0) := by
  obtain ⟨n, hempty⟩ : ∃ n, p.parts.reverse.takeWhile (·.isEmpty) = List.replicate n [] := by
    refine ⟨_, List.eq_replicate_iff.mpr ⟨rfl, fun part hmem => ?_⟩⟩
    exact List.isEmpty_iff.mp (List.mem_takeWhile_imp hmem)
  have hparts : p.parts = outer.reverse ++ part :: List.replicate n [] := by
    have hreverse := List.takeWhile_append_dropWhile (p := fun part : List Char => part.isEmpty)
      (l := p.parts.reverse)
    rw [hempty, h] at hreverse
    rw [← List.reverse_reverse p.parts, ← hreverse]
    simp
  refine ⟨n, hparts, fun hslash => ?_⟩
  by_contra hn
  -- The last part is empty, and not the only one.
  have hlast : p.parts.getLast? = some [] := by
    rw [hparts, List.getLast?_append, List.getLast?_cons, List.getLast?_replicate, if_neg hn]
    rfl
  have htext : p.text.toList ≠ [] := by
    intro hnil
    rw [parts, hnil] at h
    cases h
  rw [endsInSlash, getLast?_of_splitSlashes htext hlast] at hslash
  cases hslash

/-- The steps of a path are those to its last one, that, and one for each slash behind. -/
theorem steps_eq (h : p.lastStep.2 = .normal name) :
    ∃ n, p.steps = p.lastStep.1 ++ .normal name :: List.replicate n .here ∧
      (p.endsInSlash = false → n = 0) := by
  rcases hlast : p.lastStep with ⟨outer, last⟩
  obtain rfl : last = .normal name := by rwa [hlast] at h
  unfold lastStep at hlast
  split at hlast
  · cases hlast
  · rename_i part rest hrest
    obtain ⟨rfl, hname⟩ := Prod.mk.inj hlast
    obtain ⟨n, hparts, hn⟩ := exists_parts_eq hrest
    refine ⟨n, ?_, hn⟩
    rw [steps, hparts, List.map_append, List.map_cons, hname, List.map_replicate]
    rfl

/-- The steps to the last one are steps of the path. -/
theorem fst_lastStep_isPrefix (p : Path) : p.lastStep.1 <+: p.steps := by
  unfold lastStep
  split
  · exact List.nil_prefix
  · rename_i part outer houter
    obtain ⟨n, hparts, -⟩ := exists_parts_eq houter
    rw [steps, hparts, List.map_append]
    exact List.prefix_append _ _

/-! ## Names -/

/-- Whether a part names something, and does not only point at a directory. -/
structure IsName (part : List Char) : Prop where
  ne_nil : part ≠ []
  ne_here : part ≠ ['.']
  ne_up : part ≠ ['.', '.']
  slash_not_mem : '/' ∉ part

/-- What can follow the last component of a path: slashes, and single points after slashes. -/
inductive Trailer : List Char → Prop
  | nil : Trailer []
  | slash {rest : List Char} : Trailer rest → Trailer ('/' :: rest)
  | here {rest : List Char} : Trailer rest → Trailer ('/' :: '.' :: rest)

/-- Whether a name is the last component of a path, but for what can follow that. -/
def EndsIn (p : Path) (name : List Char) : Prop :=
  IsName name ∧ ∃ before trailer, p.text.toList = before ++ (name ++ trailer) ∧
    SetsOff before ∧ Trailer trailer

theorem innerComponent?_eq_none_iff :
    innerComponent? part = none ↔ part = [] ∨ part = ['.'] := by
  unfold innerComponent?
  split
  · simp_all
  · split <;> simp_all

theorem innerComponent?_eq_normal_iff : innerComponent? part = some (.normal name) ↔
    part = name ∧ part ≠ [] ∧ part ≠ ['.'] ∧ part ≠ ['.', '.'] := by
  unfold innerComponent?
  split
  · rename_i h
    constructor
    · nofun
    · rintro ⟨-, hnil, hhere, -⟩
      exact absurd h (not_or.mpr ⟨hnil, hhere⟩)
  · split <;> simp_all

theorem parts_of_isAbsolute (h : p.isAbsolute = true) : ∃ rest, p.parts = [] :: rest := by
  rw [isAbsolute, beq_iff_eq, List.head?_eq_some_iff] at h
  obtain ⟨cs, hcs⟩ := h
  exact ⟨splitSlashes cs, by rw [parts, hcs, splitSlashes, if_pos rfl]⟩

/-- A path starts with a root or a point, neither of which is a name, or with a part like any
other. -/
theorem getLast?_components_eq_normal_iff : p.components.getLast? = some (.normal name) ↔
    (p.parts.filterMap innerComponent?).getLast? = some (.normal name) := by
  cases hparts : p.parts with
  | nil => simp [components, hparts]
  | cons first rest =>
    have hlead {lead : Component} (h : lead ≠ .normal name) :
        ([lead] ++ rest.filterMap innerComponent?).getLast? = some (.normal name) ↔
          (rest.filterMap innerComponent?).getLast? = some (.normal name) := by
      rw [List.getLast?_append, Option.or_eq_some_iff, List.getLast?_singleton]
      simp [h]
    have hnone (h : first = [] ∨ first = ['.']) :
        (first :: rest).filterMap innerComponent? = rest.filterMap innerComponent? :=
      List.filterMap_cons_none (innerComponent?_eq_none_iff.mpr h)
    simp only [components, hparts]
    split
    · rename_i habs
      obtain ⟨rest', hrest'⟩ := parts_of_isAbsolute habs
      obtain ⟨rfl, -⟩ := List.cons.inj (hparts.symm.trans hrest')
      rw [hnone (.inl rfl), hlead (by simp)]
    · split
      · rename_i hfirst
        rw [hnone (.inr hfirst), hlead (by simp)]
      · cases hc : innerComponent? first <;> simp [hc]

/-- The file name of a path is its last part that is more than a point. -/
theorem fileName?_eq_some_iff_parts : p.fileName? = some name ↔ IsName name ∧
    ∃ outer rest, p.parts = outer ++ name :: rest ∧ ∀ part ∈ rest, part = [] ∨ part = ['.'] := by
  have hlast : p.fileName? = some name ↔ p.components.getLast? = some (.normal name) := by
    unfold fileName?
    split <;> simp_all
  -- The last one is the first from the end.
  rw [hlast, getLast?_components_eq_normal_iff, List.getLast?_filterMap,
    List.findSome?_eq_some_iff]
  constructor
  · rintro ⟨rest, part, outer, hparts, hname, hrest⟩
    obtain ⟨rfl, hnil, hhere, hup⟩ := innerComponent?_eq_normal_iff.mp hname
    have hparts : p.parts = outer.reverse ++ part :: rest.reverse := by
      rw [← List.reverse_reverse p.parts, hparts]
      simp
    have hmem : part ∈ p.parts := by simp [hparts]
    refine ⟨⟨hnil, hhere, hup, slash_not_mem_of_mem_splitSlashes hmem⟩, outer.reverse, rest.reverse,
      hparts, fun part hpart => ?_⟩
    exact innerComponent?_eq_none_iff.mp (hrest part (List.mem_reverse.mp hpart))
  · rintro ⟨hname, outer, rest, hparts, hrest⟩
    refine ⟨rest.reverse, name, outer.reverse, by simp [hparts], ?_, fun part hpart => ?_⟩
    · exact innerComponent?_eq_normal_iff.mpr ⟨rfl, hname.ne_nil, hname.ne_here, hname.ne_up⟩
    · exact innerComponent?_eq_none_iff.mpr (hrest part (List.mem_reverse.mp hpart))

/-! ## Names at the end -/

theorem trailer_flatMap {rest : List (List Char)} (h : ∀ part ∈ rest, part = [] ∨ part = ['.']) :
    Trailer (rest.flatMap ('/' :: ·)) := by
  induction rest with
  | nil => exact .nil
  | cons part rest ih =>
    obtain ⟨hpart, hrest⟩ := List.forall_mem_cons.mp h
    rcases hpart with rfl | rfl
    · exact .slash (ih hrest)
    · exact .here (ih hrest)

/-- What follows a name adds only parts that point nowhere else. -/
theorem Trailer.splitOn {trailer : List Char} (h : Trailer trailer) (hname : '/' ∉ name) :
    ∃ rest, (name ++ trailer).splitOn '/' = name :: rest ∧
      ∀ part ∈ rest, part = [] ∨ part = ['.'] := by
  induction h generalizing name with
  | nil => exact ⟨[], by simp [List.splitOn_eq_singleton hname], List.forall_mem_nil _⟩
  | slash _ ih =>
    obtain ⟨rest, hsplit, hrest⟩ := ih List.not_mem_nil
    refine ⟨[] :: rest, ?_, List.forall_mem_cons.mpr ⟨.inl rfl, hrest⟩⟩
    rw [List.splitOn_append_cons_self_of_not_mem hname, ← hsplit, List.nil_append]
  | here _ ih =>
    have hpoint : '/' ∉ ['.'] := by decide
    obtain ⟨rest, hsplit, hrest⟩ := ih hpoint
    refine ⟨['.'] :: rest, ?_, List.forall_mem_cons.mpr ⟨.inr rfl, hrest⟩⟩
    rw [List.splitOn_append_cons_self_of_not_mem hname, ← hsplit, List.singleton_append]

/-- A path has a name for its file name iff it ends in that. -/
theorem fileName?_eq_some_iff : p.fileName? = some name ↔ p.EndsIn name := by
  rw [fileName?_eq_some_iff_parts]
  refine and_congr_right fun hname => ?_
  constructor
  · rintro ⟨outer, rest, hparts, hrest⟩
    obtain ⟨before, hbefore, heq⟩ := exists_intercalate_append outer name rest
    refine ⟨before, _, ?_, hbefore, trailer_flatMap hrest⟩
    rw [← intercalate_splitSlashes p.text.toList, ← parts, hparts, heq]
  · rintro ⟨before, trailer, htext, hbefore, htrailer⟩
    obtain ⟨rest, hsplit, hrest⟩ := htrailer.splitOn hname.slash_not_mem
    rcases hbefore with rfl | ⟨cs, rfl⟩
    · refine ⟨[], rest, ?_, hrest⟩
      rw [parts, htext, splitSlashes_eq_splitOn, List.nil_append, hsplit, List.nil_append]
    · refine ⟨cs.splitOn '/', rest, ?_, hrest⟩
      rw [parts, htext, splitSlashes_eq_splitOn, List.append_assoc, List.singleton_append,
        List.splitOn_append_cons_self, hsplit]

/-! ## Joined paths -/

/-- A path is put behind a slash, or behind nothing. -/
theorem exists_toList_join (p q : Path) :
    ∃ before, (p.join q).text.toList = before ++ q.text.toList ∧ SetsOff before := by
  unfold join
  split
  · exact ⟨[], rfl, .inl rfl⟩
  · split
    · rename_i h
      refine ⟨p.text.toList, String.toList_append, ?_⟩
      rcases h with hempty | hslash
      · exact .inl (by simpa using hempty)
      · exact .inr (List.getLast?_eq_some_iff.mp hslash)
    · exact ⟨p.text.toList ++ ['/'], by simp, .inr ⟨_, rfl⟩⟩

/-- The last component of a path is the same wherever the path is taken from, if it is a name. -/
theorem EndsIn.join (h : q.EndsIn name) (p : Path) : (p.join q).EndsIn name := by
  obtain ⟨hname, before, trailer, htext, hbefore, htrailer⟩ := h
  obtain ⟨outer, hjoin, houter⟩ := exists_toList_join p q
  refine ⟨hname, outer ++ before, trailer, ?_, houter.append hbefore, htrailer⟩
  rw [hjoin, htext, List.append_assoc]

/-! ## Directories on the way -/

/-- Whether a step leads away from the directory that it is taken in. -/
def leads : Component → Bool
  | .root | .here => false
  | .up | .normal _ => true

theorem innerComponent?_eq (part : List Char) :
    innerComponent? part = [stepOf part].find? leads := by
  unfold innerComponent? stepOf
  split
  · rfl
  · split <;> rfl

theorem filterMap_innerComponent? (parts : List (List Char)) :
    parts.filterMap innerComponent? = (parts.map stepOf).filter leads := by
  induction parts with
  | nil => rfl
  | cons part parts ih =>
    rw [List.map_cons, List.filterMap_cons, innerComponent?_eq, List.filter_cons]
    cases hpart : leads (stepOf part) <;> simp [hpart, ih]

/-- The components of a path lead the same way as its steps. -/
theorem filter_components (p : Path) :
    p.components.filter leads = p.steps.filter leads := by
  have hinner (parts : List (List Char)) : (parts.filterMap innerComponent?).filter leads =
      (parts.map stepOf).filter leads := by
    rw [filterMap_innerComponent?, List.filter_filter]
    simp
  unfold components steps
  split
  · rename_i hparts
    rw [hparts]
    rfl
  · rename_i first rest hparts
    rw [hparts, List.map_cons, ← List.singleton_append (x := stepOf first), List.filter_append,
      List.filter_append, hinner]
    refine congrArg (· ++ _) ?_
    split
    · rename_i habs
      obtain ⟨rest', hrest'⟩ := parts_of_isAbsolute habs
      obtain ⟨rfl, -⟩ := List.cons.inj (hparts.symm.trans hrest')
      rfl
    · split
      · rename_i hhere
        rw [hhere]
        rfl
      · rw [innerComponent?_eq, List.find?_singleton]
        cases hfirst : leads (stepOf first) <;> simp [hfirst]

theorem of_innerComponent?_eq_some {c : Component} (h : innerComponent? part = some c) :
    c.text = part ∧ c.text ≠ [] ∧ stepOf c.text = c := by
  unfold innerComponent? at h
  split at h
  · cases h
  · rename_i hstay
    split at h <;> rename_i hup <;> obtain rfl := Option.some.inj h
    · rw [hup]
      decide
    · refine ⟨rfl, fun hnil => hstay (.inl hnil), ?_⟩
      rw [Component.text, stepOf, if_neg hstay, if_neg hup]

/-- What stands for a component in a path. -/
theorem of_mem_components {c : Component} (h : c ∈ p.components) :
    '/' ∉ c.text ∧ (c = .root ∨ c.text ≠ [] ∧ stepOf c.text = c) := by
  have hinner {part : List Char} (hpart : part ∈ p.parts) (hc : innerComponent? part = some c) :
      '/' ∉ c.text ∧ (c = .root ∨ c.text ≠ [] ∧ stepOf c.text = c) := by
    obtain ⟨htext, hc⟩ := of_innerComponent?_eq_some hc
    exact ⟨htext ▸ slash_not_mem_of_mem_splitSlashes hpart, .inr hc⟩
  unfold components at h
  split at h
  · cases h
  · rename_i first rest hparts
    rw [hparts] at hinner
    rcases List.mem_append.mp h with h | h
    · split at h
      · obtain rfl := List.mem_singleton.mp h
        decide
      · split at h
        · obtain rfl := List.mem_singleton.mp h
          decide
        · exact hinner List.mem_cons_self (Option.mem_toList.mp h)
    · obtain ⟨part, hpart, hc⟩ := List.mem_filterMap.mp h
      exact hinner (List.mem_cons_of_mem _ hpart) hc

/-- Only an absolute path starts with a root. -/
theorem head?_components_eq_root_iff :
    p.components.head? = some .root ↔ p.isAbsolute = true := by
  have hinner (parts : List (List Char)) :
      (parts.filterMap innerComponent?).head? ≠ some .root := by
    rw [filterMap_innerComponent?, Ne, List.head?_eq_some_iff]
    rintro ⟨rest, hrest⟩
    have hroot : Component.root ∈ (parts.map stepOf).filter leads :=
      hrest ▸ List.mem_cons_self
    exact Bool.false_ne_true (List.mem_filter.mp hroot).2
  unfold components
  split
  · rename_i hparts
    exact absurd hparts (splitSlashes_ne_nil _)
  · rename_i first rest hparts
    cases habs : p.isAbsolute with
    | true => simp
    | false =>
      rw [if_neg Bool.false_ne_true]
      split
      · simp
      · have hroot := hinner (first :: rest)
        rw [List.filterMap_cons] at hroot
        cases hfirst : innerComponent? first <;> simp_all

/-- The steps of a path that is put together from some components of another. -/
theorem steps_ofComponents {cs : List Component} (hne : cs ≠ []) (h : ∀ c ∈ cs, '/' ∉ c.text) :
    (ofComponents cs).steps = cs.map (stepOf ·.text) := by
  have hparts : (ofComponents cs).parts = cs.map (·.text) := by
    rw [parts, splitSlashes_eq_splitOn, ofComponents, String.toList_ofList,
      List.splitOn_intercalate]
    · exact List.forall_mem_map.mpr h
    · simpa using hne
  rw [steps, hparts, List.map_map]
  rfl

theorem filter_steps_ofComponents {cs : List Component} (hne : cs ≠ [])
    (h : ∀ c ∈ cs, '/' ∉ c.text ∧ (c = .root ∨ c.text ≠ [] ∧ stepOf c.text = c)) :
    (ofComponents cs).steps.filter leads = cs.filter leads := by
  rw [steps_ofComponents hne fun c hc => (h c hc).1]
  clear hne
  induction cs with
  | nil => rfl
  | cons c cs ih =>
    obtain ⟨hc, hcs⟩ := List.forall_mem_cons.mp h
    have hstep : leads (stepOf c.text) = leads c ∧ (leads c = true → stepOf c.text = c) := by
      rcases hc.2 with rfl | ⟨-, hc⟩
      · exact ⟨rfl, nofun⟩
      · exact ⟨by rw [hc], fun _ => hc⟩
    rw [List.map_cons, List.filter_cons, List.filter_cons, hstep.1, ih hcs]
    split
    · rename_i hleads
      rw [hstep.2 hleads]
    · rfl

theorem isAbsolute_ofComponents {c : Component} {cs : List Component} (hc : '/' ∉ c.text)
    (hroot : c = .root ∧ cs ≠ [] ∨ c ≠ .root ∧ c.text ≠ []) :
    (ofComponents (c :: cs)).isAbsolute = true ↔ c = .root := by
  rw [isAbsolute, ofComponents, String.toList_ofList, List.map_cons, intercalate_cons]
  rcases hroot with ⟨rfl, hcs⟩ | ⟨hne, htext⟩
  · obtain ⟨c', cs', rfl⟩ := List.exists_cons_of_ne_nil hcs
    simp [Component.text]
  · obtain ⟨x, xs, hx⟩ := List.exists_cons_of_ne_nil htext
    rw [hx] at hc ⊢
    have hx : x ≠ '/' := fun h => hc (h ▸ List.mem_cons_self)
    simp [hne, hx]

theorem exists_of_mem_directoriesTo {cs : List Component} (h : q ∈ directoriesTo cs) :
    ∃ c cs', c :: cs' <+: cs.reverse ∧ (c = .root → cs' ≠ []) ∧ q = ofComponents (c :: cs') := by
  induction cs with
  | nil => cases h
  | cons last outer ih =>
    rw [directoriesTo] at h
    split at h
    · cases h
    · rename_i hlast
      rcases List.mem_cons.mp h with rfl | h
      · obtain ⟨c, cs', hcs⟩ := List.exists_cons_of_ne_nil
          (List.reverse_ne_nil_iff.mpr (List.cons_ne_nil last outer))
        refine ⟨c, cs', hcs ▸ List.prefix_rfl, ?_, by rw [hcs]⟩
        rintro rfl rfl
        exact hlast (by simpa using congrArg List.getLast? hcs)
      · obtain ⟨c, cs', hstart, hc, rfl⟩ := ih h
        refine ⟨c, cs', hstart.trans ?_, hc, rfl⟩
        rw [List.reverse_cons]
        exact List.prefix_append _ _

/-- The directories on the way to a path are on its way. -/
theorem of_mem_directories (h : q ∈ p.directories) :
    q.isAbsolute = p.isAbsolute ∧
      q.steps.filter leads <+: p.steps.filter leads := by
  unfold directories at h
  split at h
  · cases h
  rename_i last outer hcomponents
  split at h
  · cases h
  rcases List.mem_cons.mp h with rfl | h
  · exact ⟨rfl, List.prefix_rfl⟩
  obtain ⟨c, cs, hstart, hroot, rfl⟩ := exists_of_mem_directoriesTo h
  have hstart : c :: cs <+: p.components := by
    rw [← List.reverse_reverse p.components, hcomponents, List.reverse_cons]
    exact hstart.trans (List.prefix_append _ _)
  have hmem (c' : Component) (hc' : c' ∈ c :: cs) := of_mem_components (hstart.subset hc')
  constructor
  · rw [Bool.eq_iff_iff, ← head?_components_eq_root_iff (p := p)]
    obtain ⟨rest, hrest⟩ := hstart
    rw [← hrest, List.cons_append, List.head?_cons, Option.some_inj]
    obtain ⟨hslash, htext⟩ := hmem c List.mem_cons_self
    refine isAbsolute_ofComponents hslash ?_
    rcases htext with rfl | ⟨hne, -⟩
    · exact .inl ⟨rfl, hroot rfl⟩
    · exact .inr ⟨by rintro rfl; exact hne rfl, hne⟩
  · rw [filter_steps_ofComponents (List.cons_ne_nil _ _) hmem, ← filter_components]
    exact hstart.filter _

/-- The path that another is taken from is on its way. -/
theorem filter_steps_prefix_join (hq : q.isAbsolute = false) (p : Path) :
    (p.join q).isAbsolute = p.isAbsolute ∧
      p.steps.filter leads <+: (p.join q).steps.filter leads := by
  have hsplit (cs ds : List Char) : (splitSlashes (cs ++ '/' :: ds)).map stepOf =
      (splitSlashes cs).map stepOf ++ (splitSlashes ds).map stepOf := by
    simp only [splitSlashes_eq_splitOn, List.splitOn_append_cons_self, List.map_append]
  unfold join
  rw [hq, if_neg Bool.false_ne_true]
  split
  · rename_i h
    rcases h with hempty | hslash
    · obtain rfl : p = ⟨""⟩ := congrArg Path.mk (by simpa using hempty)
      rw [String.empty_append, hq]
      exact ⟨rfl, List.nil_prefix⟩
    · obtain ⟨cs, hcs⟩ := List.getLast?_eq_some_iff.mp hslash
      simp only [isAbsolute, steps, parts, String.toList_append, hcs, List.append_assoc,
        List.singleton_append, hsplit, List.filter_append, List.head?_append, List.head?_cons]
      exact ⟨trivial, (List.prefix_append_right_inj _).mpr List.nil_prefix⟩
  · rename_i h
    obtain ⟨x, xs, hx⟩ := List.exists_cons_of_ne_nil
      (show p.text.toList ≠ [] from fun hnil => h (.inl (by simpa using hnil)))
    have htext : (p.text ++ "/" ++ q.text).toList = p.text.toList ++ '/' :: q.text.toList := by
      simp
    constructor
    · rw [isAbsolute, isAbsolute, htext, hx]
      rfl
    · simp only [steps, parts, htext, hsplit, List.filter_append]
      exact List.prefix_append _ _

end Dbml.Path
