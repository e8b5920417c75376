import Dbml.Proofs.Text.Quoted
import Mathlib.Algebra.Group.Nat.Even
import Mathlib.Data.List.DropRight

/-!
# Reading quoted texts

A reader takes the character after a backslash as it is, and only delimiters are escaped. So a
backslash of the text itself takes the next character with it: a delimiter is read as a part of
the text, and the end of the text as its end, iff an even number of backslashes stands
before it (`EvenBackslashes`, `readQuoted_quote_iff`). What is read is then the text without the
backslashes that took something (`resolve`), and so the text itself iff it has no backslash
(`readQuoted_quote_self_iff`). In an expression between backticks nothing is escaped, and the
next backtick is its end (`readExpression_ends_iff`).
-/

namespace Dbml.Text

variable {d c : Char} {cs rest t : List Char}

/-! ## Reading one character -/

theorem map_cons_eq_some_iff {x : Option (List Char × List Char)} :
    (x.map fun (s, rest) => (c :: s, rest)) = some (t, rest) ↔
      ∃ s, x = some (s, rest) ∧ t = c :: s := by
  simp only [Option.map_eq_some_iff, Prod.exists, Prod.mk.injEq]
  constructor
  · rintro ⟨s, r, hx, rfl, rfl⟩
    exact ⟨s, hx, rfl⟩
  · rintro ⟨s, hx, rfl⟩
    exact ⟨s, rest, hx, rfl, rfl⟩

theorem readToDelimiter_backslash_iff :
    readToDelimiter d ('\\' :: c :: cs) = some (t, rest) ↔
      ∃ s, readToDelimiter d cs = some (s, rest) ∧ t = c :: s :=
  map_cons_eq_some_iff

theorem readToDelimiter_cons (hc : c ≠ '\\') (d : Char) (cs : List Char) :
    readToDelimiter d (c :: cs) = if c = d then some ([], cs)
      else (readToDelimiter d cs).map fun (s, rest) => (c :: s, rest) :=
  readToDelimiter.eq_4 _ _ _ (fun h => absurd h hc) fun _ _ h => absurd h hc

theorem readToDelimiter_delimiter (hd : d ≠ '\\') (cs : List Char) :
    readToDelimiter d (d :: cs) = some ([], cs) := by
  rw [readToDelimiter_cons hd, if_pos rfl]

theorem readToDelimiter_cons_iff (hc : c ≠ '\\') (hcd : c ≠ d) :
    readToDelimiter d (c :: cs) = some (t, rest) ↔
      ∃ s, readToDelimiter d cs = some (s, rest) ∧ t = c :: s := by
  rw [readToDelimiter_cons hc, if_neg hcd, map_cons_eq_some_iff]

/-- What is left is shorter, by the delimiter at least. -/
theorem length_lt_of_readToDelimiter (h : readToDelimiter d cs = some (t, rest)) :
    rest.length < cs.length := by
  fun_induction readToDelimiter d cs generalizing t with
  | case1 | case2 => cases h
  | case3 c cs ih =>
    obtain ⟨s, hs, -⟩ := map_cons_eq_some_iff.mp h
    exact Nat.lt_succ_of_lt (Nat.lt_succ_of_lt (ih hs))
  | case4 cs =>
    cases h
    exact Nat.lt_succ_self _
  | case5 c cs _ _ _ ih =>
    obtain ⟨s, hs, -⟩ := map_cons_eq_some_iff.mp h
    exact Nat.lt_succ_of_lt (ih hs)

/-! ## Backslashes before a delimiter -/

/-- The number of backslashes at the end of a text. -/
def trailingBackslashes (cs : List Char) : Nat := (cs.rtakeWhile (· == '\\')).length

/-- An even number of backslashes stands before each delimiter of a text, and at its end. -/
def EvenBackslashes (d : Char) (cs : List Char) : Prop :=
  ∀ before after, cs = before ++ after → (∀ c ∈ after.head?, c = d) →
    Even (trailingBackslashes before)

theorem trailingBackslashes_cons (hc : c ≠ '\\') (cs : List Char) :
    trailingBackslashes (c :: cs) = trailingBackslashes cs := by
  simp only [trailingBackslashes, List.rtakeWhile, List.reverse_cons, List.takeWhile_append]
  split <;> simp [*]

/-- Two characters of which the first is a backslash are two backslashes, or none at the end. -/
theorem even_trailingBackslashes_pair (c : Char) (cs : List Char) :
    Even (trailingBackslashes ('\\' :: c :: cs)) ↔ Even (trailingBackslashes cs) := by
  by_cases hc : c = '\\'
  · subst hc
    simp only [trailingBackslashes, List.rtakeWhile, List.reverse_cons, List.append_assoc,
      List.takeWhile_append]
    split <;> simp [Nat.even_add_one, *]
  · have hstop : trailingBackslashes ('\\' :: c :: cs) = trailingBackslashes (c :: cs) := by
      simp [trailingBackslashes, List.rtakeWhile, List.takeWhile_append, hc]
    rw [hstop, trailingBackslashes_cons hc]

namespace EvenBackslashes

theorem nil : EvenBackslashes d [] := by
  intro before after h _
  obtain ⟨rfl, -⟩ := List.append_eq_nil_iff.mp h.symm
  exact Even.zero

theorem cons_iff (hc : c ≠ '\\') : EvenBackslashes d (c :: cs) ↔ EvenBackslashes d cs := by
  constructor
  · rintro h before after rfl ha
    rw [← trailingBackslashes_cons hc]
    exact h (c :: before) after rfl ha
  · intro h before after heq ha
    cases before with
    | nil => exact Even.zero
    | cons x before =>
      obtain ⟨rfl, rfl⟩ := List.cons.inj heq
      rw [trailingBackslashes_cons hc]
      exact h before after rfl ha

theorem not_backslash : ¬ EvenBackslashes d ['\\'] := fun h =>
  absurd (h ['\\'] [] rfl nofun) (by decide)

/-- A backslash and what it takes, which is no delimiter of the text. -/
theorem pair_iff : EvenBackslashes d ('\\' :: c :: cs) ↔ c ≠ d ∧ EvenBackslashes d cs := by
  constructor
  · intro h
    constructor
    · rintro rfl
      exact absurd (h ['\\'] (c :: cs) rfl fun _ hx => (Option.some.inj hx).symm) (by decide)
    · rintro before after rfl ha
      exact (even_trailingBackslashes_pair c before).mp (h ('\\' :: c :: before) after rfl ha)
  · rintro ⟨hcd, h⟩ before after heq ha
    rcases before with _ | ⟨x, _ | ⟨y, before⟩⟩
    · exact Even.zero
    · obtain ⟨-, rfl⟩ := List.cons.inj heq
      exact absurd (ha c rfl) hcd
    · obtain ⟨rfl, htail⟩ := List.cons.inj heq
      obtain ⟨rfl, rfl⟩ := List.cons.inj htail
      exact (even_trailingBackslashes_pair c before).mpr (h before after rfl ha)

end EvenBackslashes

/-! ## Reading a quoted text -/

/-- A text without the backslashes that take a character. -/
def resolve : List Char → List Char
  | [] => []
  | '\\' :: c :: cs => c :: resolve cs
  | c :: cs => c :: resolve cs

/-- Reading stops at the last delimiter and nowhere else iff no delimiter of the text, nor the
last one, is told from the others by a backslash of the text. -/
theorem readToDelimiter_escape_iff (hd : d ≠ '\\') :
    readToDelimiter d (escape d cs ++ d :: rest) = some (t, rest) ↔
      EvenBackslashes d cs ∧ t = resolve cs := by
  fun_induction resolve cs generalizing t with
  | case1 =>
    rw [escape, List.nil_append, readToDelimiter_delimiter hd]
    simp [EvenBackslashes.nil, eq_comm]
  | case2 c cs ih =>
    rw [EvenBackslashes.pair_iff, escape, if_neg hd.symm, escape]
    by_cases hcd : c = d
    · -- the backslash is taken by the one that was to take the delimiter
      subst hcd
      simp only [if_true, List.cons_append, ne_eq, not_true_eq_false, false_and, iff_false]
      rw [readToDelimiter_backslash_iff]
      rintro ⟨s, hs, -⟩
      rw [readToDelimiter_delimiter hd] at hs
      have hlen := congrArg List.length (Prod.mk.inj (Option.some.inj hs)).2
      simp at hlen
      omega
    · rw [if_neg hcd, List.cons_append, List.cons_append, readToDelimiter_backslash_iff]
      simp [ih, hcd, and_assoc]
  | case3 c cs hpair ih =>
    by_cases hc : c = '\\'
    · -- the last delimiter is taken, and reading goes on after it
      subst hc
      obtain rfl : cs = [] := by
        cases cs with
        | nil => rfl
        | cons c' cs => exact (hpair c' cs rfl rfl).elim
      simp only [EvenBackslashes.not_backslash, false_and, iff_false]
      rw [escape, if_neg hd.symm, escape, List.cons_append, List.nil_append,
        readToDelimiter_backslash_iff]
      rintro ⟨s, hs, -⟩
      exact absurd (length_lt_of_readToDelimiter hs) (Nat.lt_irrefl _)
    · rw [EvenBackslashes.cons_iff hc, escape]
      split
      · rename_i hcd
        subst hcd
        rw [List.cons_append, List.cons_append, readToDelimiter_backslash_iff]
        simp [ih, and_assoc]
      · rename_i hcd
        rw [List.cons_append, readToDelimiter_cons_iff hc hcd]
        simp [ih, and_assoc]

/-! ## Texts without backslashes -/

theorem EvenBackslashes.of_not_mem (h : '\\' ∉ cs) : EvenBackslashes d cs := by
  induction cs with
  | nil => exact .nil
  | cons c cs ih =>
    obtain ⟨hc, hcs⟩ := not_or.mp (List.mem_cons.not.mp h)
    exact (cons_iff (Ne.symm hc)).mpr (ih hcs)

theorem length_resolve_le (cs : List Char) : (resolve cs).length ≤ cs.length := by
  fun_induction resolve cs with
  | case1 => exact Nat.le_refl _
  | case2 c cs ih => exact Nat.le_succ_of_le (Nat.succ_le_succ ih)
  | case3 c cs _ ih => exact Nat.succ_le_succ ih

/-- What is read is the text itself iff no backslash takes a character of it. -/
theorem resolve_eq_self_iff (h : EvenBackslashes d cs) : resolve cs = cs ↔ '\\' ∉ cs := by
  fun_induction resolve cs with
  | case1 => simp
  | case2 c cs _ =>
    simp only [List.mem_cons, true_or, not_true_eq_false, iff_false]
    intro heq
    have hlen := congrArg List.length heq
    have hle := length_resolve_le cs
    simp only [List.length_cons] at hlen
    omega
  | case3 c cs hpair ih =>
    by_cases hc : c = '\\'
    · subst hc
      cases cs with
      | nil => exact absurd h EvenBackslashes.not_backslash
      | cons c' cs => exact (hpair c' cs rfl rfl).elim
    · rw [EvenBackslashes.cons_iff hc] at h
      simp [ih h, Ne.symm hc]

/-! ## Literals -/

theorem readQuoted_quote_append (d : Char) (s : String) (rest : List Char) :
    readQuoted d ((quote d s).toList ++ rest) =
      readToDelimiter d (escape d s.toList ++ d :: rest) := by
  rw [toList_quote, List.cons_append, readQuoted, if_pos rfl, List.append_assoc]
  rfl

variable {s : String}

theorem readQuoted_quote_iff (hd : d ≠ '\\') :
    readQuoted d ((quote d s).toList ++ rest) = some (t, rest) ↔
      EvenBackslashes d s.toList ∧ t = resolve s.toList := by
  rw [readQuoted_quote_append, readToDelimiter_escape_iff hd]

theorem readQuoted_quote_self_iff (hd : d ≠ '\\') :
    readQuoted d ((quote d s).toList ++ rest) = some (s.toList, rest) ↔ '\\' ∉ s.toList := by
  rw [readQuoted_quote_iff hd, eq_comm (a := s.toList)]
  constructor
  · rintro ⟨heven, hself⟩
    exact (resolve_eq_self_iff heven).mp hself
  · intro h
    have heven : EvenBackslashes d s.toList := .of_not_mem h
    exact ⟨heven, (resolve_eq_self_iff heven).mpr h⟩

/-- What a reader makes of the written form of a text, whatever follows it. -/
structure IsLiteral (d : Char) (s : String) (written : List Char) : Prop where
  /-- It reads the text, up to the end of the written form. -/
  reads_iff : ∀ rest, readQuoted d (written ++ rest) = some (s.toList, rest) ↔ '\\' ∉ s.toList
  /-- It reads some text up to the end of the written form. -/
  ends_iff : ∀ rest, (∃ t, readQuoted d (written ++ rest) = some (t, rest)) ↔
    EvenBackslashes d s.toList
  eq_resolve : ∀ rest t, readQuoted d (written ++ rest) = some (t, rest) → t = resolve s.toList

theorem isLiteral_quote (hd : d ≠ '\\') (s : String) : IsLiteral d s (quote d s).toList where
  reads_iff _ := readQuoted_quote_self_iff hd
  ends_iff rest := by
    constructor
    · rintro ⟨t, h⟩
      exact ((readQuoted_quote_iff hd).mp h).1
    · exact fun h => ⟨resolve s.toList, (readQuoted_quote_iff hd).mpr ⟨h, rfl⟩⟩
  eq_resolve _ _ h := ((readQuoted_quote_iff hd).mp h).2

/-! ## Expressions -/

/-- Reads up to the next backtick, which nothing escapes: the text, and what follows. -/
def readToBacktick : List Char → Option (List Char × List Char)
  | [] => none
  | c :: cs =>
    if c = '`' then some ([], cs)
    else (readToBacktick cs).map fun (s, rest) => (c :: s, rest)

/-- Reads an expression at the start of `cs`. -/
def readExpression : List Char → Option (List Char × List Char)
  | [] => none
  | c :: cs => if c = '`' then readToBacktick cs else none

theorem readToBacktick_iff :
    readToBacktick cs = some (t, rest) ↔ cs = t ++ '`' :: rest ∧ '`' ∉ t := by
  induction cs generalizing t with
  | nil => simp [readToBacktick]
  | cons c cs ih =>
    rw [readToBacktick]
    split
    · rename_i hc
      subst hc
      cases t with
      | nil => simp
      | cons c' t =>
        simp only [Option.some.injEq, Prod.mk.injEq, List.cons_append, List.cons.injEq,
          List.mem_cons, not_or]
        exact iff_of_false nofun fun h => h.2.1 h.1.1
    · rename_i hc
      rw [map_cons_eq_some_iff]
      constructor
      · rintro ⟨s, hs, rfl⟩
        obtain ⟨rfl, hmem⟩ := ih.mp hs
        exact ⟨rfl, List.not_mem_cons_of_ne_of_not_mem (Ne.symm hc) hmem⟩
      · rintro ⟨heq, hmem⟩
        cases t with
        | nil => exact absurd (List.cons.inj heq).1 hc
        | cons c' t =>
          obtain ⟨rfl, htail⟩ := List.cons.inj heq
          exact ⟨t, ih.mpr ⟨htail, List.not_mem_of_not_mem_cons hmem⟩, rfl⟩

/-- What stands between two backticks is read as a whole iff there is none in it. -/
theorem readExpression_ends_iff {body : List Char} :
    (∃ t, readExpression ('`' :: (body ++ '`' :: rest)) = some (t, rest)) ↔ '`' ∉ body := by
  simp only [readExpression, if_true, readToBacktick_iff]
  constructor
  · rintro ⟨t, heq, hmem⟩
    exact List.append_cancel_right heq ▸ hmem
  · exact fun h => ⟨body, rfl, h⟩

end Dbml.Text
