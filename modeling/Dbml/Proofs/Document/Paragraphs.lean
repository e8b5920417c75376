import Dbml.Proofs.Document.Blocks

/-!
# Paragraphs of a text

A text is read line by line (`linesOf`). Its paragraphs end at its empty lines, but for those
that an indented line comes after (`paragraphs`). Texts that are put together with an
empty line in between are the paragraphs again (`paragraphs_joined`), if each of them starts
with a line that is neither empty nor indented and has indented lines after its own empty
ones (`IsParagraph`).
-/

namespace Dbml

open Text

/-- The lines of a text. -/
def linesOf (s : String) : List String := (s.toList.splitOn '\n').map String.ofList

theorem linesOf_intercalate {ls : List String} (hne : ls ≠ []) (h : ∀ line ∈ ls, OneLine line) :
    linesOf ("\n".intercalate ls) = ls := by
  have hone : ∀ cs ∈ ls.map String.toList, '\n' ∉ cs := List.forall_mem_map.mpr h
  have hsplit := List.splitOn_intercalate '\n' hone (List.map_eq_nil_iff.not.mpr hne)
  rw [linesOf, String.toList_intercalate]
  change ((['\n'].intercalate (ls.map String.toList)).splitOn '\n').map String.ofList = ls
  rw [hsplit, List.map_map]
  exact List.map_id'' (fun _ => String.ofList_toList) ls

/-- A text whose first line is not empty does not start with a line feed. -/
theorem head?_intercalate_ne {line : String} {ls : List String} (hne : line ≠ "")
    (h : OneLine line) : ("\n".intercalate (line :: ls)).toList.head? ≠ some '\n' := by
  obtain ⟨c, cs, hcs⟩ := List.exists_cons_of_ne_nil (String.toList_eq_nil_iff.not.mpr hne)
  rw [toList_intercalate_cons, hcs]
  rintro hc
  obtain rfl := Option.some.inj hc
  exact h (hcs ▸ List.mem_cons_self)

/-- A text whose last line is not empty does not end with a line feed. -/
theorem getLast?_intercalate_ne {line : String} {ls : List String} (hne : line ≠ "")
    (h : OneLine line) : ("\n".intercalate (ls ++ [line])).toList.getLast? ≠ some '\n' := by
  obtain ⟨before, hbefore⟩ : ∃ before, ("\n".intercalate (ls ++ [line])).toList =
      before ++ line.toList := by
    cases ls with
    | nil => exact ⟨[], by rw [List.nil_append, toList_intercalate_cons]; simp⟩
    | cons x xs =>
      rw [List.cons_append, toList_intercalate_cons, separated_append, separated_cons,
        separated_nil, List.append_nil, ← List.append_assoc, ← List.append_assoc]
      exact ⟨_, rfl⟩
  rw [hbefore, List.getLast?_append_of_ne_nil _ (String.toList_eq_nil_iff.not.mpr hne)]
  exact fun hc => h (List.mem_of_getLast? hc)

/-! ## Empty lines -/

instance (line : String) : Decidable (Indented line) :=
  inferInstanceAs (Decidable (line.toList.head? = some ' '))

theorem Indented.ne_empty {line : String} (h : Indented line) : line ≠ "" := by
  rintro rfl
  exact not_indented_empty h

/-- Whether the first line, if there is one, has a property. -/
abbrev StartsWith (p : String → Prop) (ls : List String) : Prop := ∃ line ∈ ls.head?, p line

/-- After every empty line comes one with a property. -/
def EmptyThen (p : String → Prop) : List String → Prop
  | [] => True
  | line :: rest => (line = "" → StartsWith p rest) ∧ EmptyThen p rest

namespace EmptyThen

variable {p q : String → Prop} {xs ys : List String}

theorem of_ne_empty (h : ∀ line ∈ xs, line ≠ "") : EmptyThen p xs := by
  induction xs with
  | nil => trivial
  | cons x xs ih =>
    obtain ⟨hx, hxs⟩ := List.forall_mem_cons.mp h
    exact ⟨fun he => absurd he hx, ih hxs⟩

theorem imp (h : EmptyThen p xs) (hpq : ∀ line, p line → q line) : EmptyThen q xs := by
  induction xs with
  | nil => trivial
  | cons x xs ih =>
    refine ⟨fun he => ?_, ih h.2⟩
    obtain ⟨line, hline, hp⟩ := h.1 he
    exact ⟨line, hline, hpq line hp⟩

theorem append (hx : EmptyThen p xs) (hy : EmptyThen p ys) : EmptyThen p (xs ++ ys) := by
  induction xs with
  | nil => exact hy
  | cons x xs ih =>
    refine ⟨fun he => ?_, ih hx.2⟩
    obtain ⟨line, hline, hp⟩ := hx.1 he
    exact ⟨line, List.mem_head?_append_of_mem_head? hline, hp⟩

/-- The last line is not empty, for nothing comes after it. -/
theorem getLast?_ne (h : EmptyThen p xs) : xs.getLast? ≠ some "" := by
  induction xs with
  | nil => nofun
  | cons x xs ih =>
    cases xs with
    | nil =>
      intro he
      obtain ⟨_, hline, -⟩ := h.1 (Option.some.inj he)
      cases hline
    | cons y ys =>
      rw [List.getLast?_cons_cons]
      exact ih h.2

/-- No two empty lines stand together. -/
theorem next_ne_empty (h : EmptyThen (· ≠ "") xs) {i : Nat} (hi : xs[i]? = some "") :
    xs[i + 1]? ≠ some "" := by
  induction xs generalizing i with
  | nil => nofun
  | cons x xs ih =>
    cases i with
    | zero =>
      obtain ⟨line, hline, hne⟩ := h.1 (Option.some.inj hi)
      rw [List.getElem?_cons_succ, ← List.head?_eq_getElem?, hline]
      exact fun he => hne (Option.some.inj he)
    | succ i => exact ih h.2 hi

end EmptyThen

/-! ## Paragraphs -/

/-- Puts a line in front of the first paragraph. -/
def consLine (line : String) : List (List String) → List (List String)
  | [] => [[line]]
  | p :: ps => (line :: p) :: ps

/-- Lines, cut at each empty line that no indented one comes after. -/
def paragraphs : List String → List (List String)
  | [] => [[]]
  | line :: rest =>
    if line = "" ∧ ¬ StartsWith Indented rest then [] :: paragraphs rest
    else consLine line (paragraphs rest)

/-- A paragraph as it is written. -/
structure IsParagraph (ls : List String) : Prop where
  starts : StartsWith (fun line => line ≠ "" ∧ ¬ Indented line) ls
  emptyThen : EmptyThen Indented ls

namespace IsParagraph

variable {b : List String} {bs : List (List String)}

theorem ne_nil (h : IsParagraph b) : b ≠ [] := by
  rintro rfl
  obtain ⟨_, hline, -⟩ := h.starts
  cases hline

end IsParagraph

theorem paragraphs_eq_singleton {b : List String} (h : EmptyThen Indented b) :
    paragraphs b = [b] := by
  induction b with
  | nil => rfl
  | cons line rest ih =>
    rw [paragraphs, if_neg fun hc => hc.2 (h.1 hc.1), ih h.2]
    rfl

theorem paragraphs_append {b rest : List String} (h : EmptyThen Indented b)
    (hr : ¬ StartsWith Indented rest) : paragraphs (b ++ "" :: rest) = b :: paragraphs rest := by
  induction b with
  | nil => rw [List.nil_append, paragraphs, if_pos ⟨rfl, hr⟩]
  | cons line b ih =>
    have hgoes : ¬ (line = "" ∧ ¬ StartsWith Indented (b ++ "" :: rest)) := by
      rintro ⟨he, hn⟩
      obtain ⟨next, hnext, hi⟩ := h.1 he
      exact hn ⟨next, List.mem_head?_append_of_mem_head? hnext, hi⟩
    rw [List.cons_append, paragraphs, if_neg hgoes, ih h.2]
    rfl

/-- Paragraphs with empty lines between them. -/
def joined : List (List String) → List String
  | [] => []
  | b :: bs => b ++ bs.flatMap ("" :: ·)

theorem paragraphs_joined {b : List String} {bs : List (List String)}
    (h : ∀ x ∈ b :: bs, IsParagraph x) : paragraphs (joined (b :: bs)) = b :: bs := by
  induction bs generalizing b with
  | nil =>
    rw [joined, List.flatMap_nil, List.append_nil]
    exact paragraphs_eq_singleton (h b List.mem_cons_self).emptyThen
  | cons b' bs ih =>
    obtain ⟨hb, hbs⟩ := List.forall_mem_cons.mp h
    obtain ⟨line, hline, -, hi⟩ := (hbs b' List.mem_cons_self).starts
    have hstart : ¬ StartsWith Indented (joined (b' :: bs)) := by
      rintro ⟨line', hline', hi'⟩
      obtain rfl := Option.some.inj
        ((List.mem_head?_append_of_mem_head? hline).symm.trans hline')
      exact hi hi'
    have hcut := paragraphs_append hb.emptyThen hstart
    rwa [ih hbs] at hcut

theorem emptyThen_joined {b : List String} {bs : List (List String)}
    (h : ∀ x ∈ b :: bs, IsParagraph x) : EmptyThen (· ≠ "") (joined (b :: bs)) := by
  induction bs generalizing b with
  | nil =>
    rw [joined, List.flatMap_nil, List.append_nil]
    exact (h b List.mem_cons_self).emptyThen.imp fun _ => Indented.ne_empty
  | cons b' bs ih =>
    obtain ⟨hb, hbs⟩ := List.forall_mem_cons.mp h
    obtain ⟨line, hline, hne, -⟩ := (hbs b' List.mem_cons_self).starts
    refine (hb.emptyThen.imp fun _ => Indented.ne_empty).append ⟨fun _ => ?_, ih hbs⟩
    exact ⟨line, List.mem_head?_append_of_mem_head? hline, hne⟩

/-- Texts of several lines, with empty lines between them, line by line. -/
theorem intercalate_joined {b : List String} {bs : List (List String)}
    (h : ∀ x ∈ b :: bs, x ≠ []) :
    "\n\n".intercalate ((b :: bs).map ("\n".intercalate ·)) = "\n".intercalate (joined (b :: bs)) := by
  obtain ⟨hb, hbs⟩ := List.forall_mem_cons.mp h
  obtain ⟨line, lines, rfl⟩ := List.exists_cons_of_ne_nil hb
  rw [← String.toList_inj, List.map_cons, toList_intercalate_cons, toList_intercalate_cons, joined,
    List.cons_append, toList_intercalate_cons, separated_append, ← List.append_assoc]
  exact congrArg _ (Document.separated_blocks hbs)

end Dbml
