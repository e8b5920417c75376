import Dbml.Proofs.Text.Words
import Dbml.Text.Quoted

/-!
# Where a quoted text starts

Inside a quoted text every delimiter follows a backslash (`escape_ne_append`). So of the
delimiters at the end of a line the one after a blank is where the last quoted text
starts, whatever that text and the ones before it are (`append_quote_inj`).
-/

namespace Dbml.Text

variable {d c : Char} {cs cs' : List Char}

theorem escape_ne_cons (hd : d ≠ '\\') (bs : List Char) : escape d cs ≠ d :: bs := by
  intro h
  cases cs with
  | nil => cases h
  | cons c cs =>
    rw [escape] at h
    split at h
    · exact hd (List.cons.inj h).1.symm
    · rename_i hc
      exact hc (List.cons.inj h).1

theorem escape_injective (hd : d ≠ '\\') (h : escape d cs = escape d cs') : cs = cs' := by
  induction cs generalizing cs' with
  | nil =>
    cases cs' with
    | nil => rfl
    | cons c' cs' =>
      rw [escape, escape] at h
      split at h <;> cases h
  | cons c cs ih =>
    cases cs' with
    | nil =>
      rw [escape, escape] at h
      split at h <;> cases h
    | cons c' cs' =>
      rw [escape, escape] at h
      split at h <;> split at h <;> rename_i hc hc'
      · simp only [List.cons.injEq, true_and] at h
        rw [hc, hc', ih h.2]
      · exact absurd (List.cons.inj h).2.symm (hc ▸ escape_ne_cons hd _)
      · exact absurd (List.cons.inj h).2 (hc' ▸ escape_ne_cons hd _)
      · obtain ⟨rfl, h⟩ := List.cons.inj h
        rw [ih ‹_›]

/-- No delimiter follows anything but a backslash. -/
theorem escape_ne_append (hd : d ≠ '\\') (hc : c ≠ '\\') (as bs : List Char) :
    escape d cs ≠ as ++ c :: d :: bs := by
  intro h
  induction cs generalizing as with
  | nil => cases as <;> cases h
  | cons x cs ih =>
    rw [escape] at h
    split at h
    · rename_i hx
      subst hx
      cases as with
      | nil => exact hc (List.cons.inj h).1.symm
      | cons a as =>
        cases as with
        | nil =>
          simp only [List.cons_append, List.nil_append, List.cons.injEq] at h
          exact escape_ne_cons hd _ h.2.2
        | cons a' as => exact ih as (List.cons.inj (List.cons.inj h).2).2
    · cases as with
      | nil => exact escape_ne_cons hd _ (List.cons.inj h).2
      | cons a as => exact ih as (List.cons.inj h).2

theorem toList_quote (d : Char) (s : String) :
    (quote d s).toList = d :: (escape d s.toList ++ [d]) :=
  String.toList_ofList

theorem mem_escape (h : c ∈ escape d cs) : c ∈ cs ∨ c = '\\' := by
  induction cs with
  | nil => cases h
  | cons x cs ih =>
    rw [escape] at h
    split at h <;> simp only [List.mem_cons] at h ⊢ <;> tauto

theorem OneLine.quote {s : String} (h : OneLine s) (hd : d ≠ '\n') : OneLine (quote d s) := by
  rw [OneLine, toList_quote, List.mem_cons, List.mem_append, List.mem_singleton]
  rintro (hn | hn | hn)
  · exact hd hn.symm
  · exact (mem_escape hn).elim h (by decide)
  · exact hd hn.symm

theorem quote_inj (hd : d ≠ '\\') {s t : String} (h : quote d s = quote d t) : s = t := by
  have h := congrArg String.toList h
  rw [toList_quote, toList_quote] at h
  exact String.toList_inj.mp (escape_injective hd (List.append_cancel_right (List.cons.inj h).2))

/-- What stands before the last quoted text, and a blank, determines it. -/
theorem append_quote_inj (hd : d ≠ '\\') (hb : d ≠ ' ') {s t : String} {xs ys : List Char}
    (h : xs ++ ' ' :: (quote d s).toList = ys ++ ' ' :: (quote d t).toList) :
    xs = ys ∧ s = t := by
  -- a second blank and delimiter would be inside the other text
  have hinside {s t : String} {as : List Char}
      (h : ' ' :: (quote d s).toList = as ++ ' ' :: (quote d t).toList) : as = [] ∧ s = t := by
    cases as with
    | nil => exact ⟨rfl, quote_inj hd (String.toList_inj.mp (List.cons.inj h).2)⟩
    | cons a as =>
      simp only [toList_quote, ← List.cons_append, ← List.append_assoc,
        List.append_cancel_right_eq] at h
      simp only [List.cons_append, List.cons.injEq] at h
      cases as with
      | nil => exact absurd (List.cons.inj h.2).1 hb
      | cons a' as =>
        exact absurd (List.cons.inj h.2).2 (escape_ne_append hd (by decide) _ _)
  rcases List.append_eq_append_iff.mp h with ⟨as, rfl, hs⟩ | ⟨as, rfl, ht⟩
  · obtain ⟨rfl, rfl⟩ := hinside hs
    exact ⟨(List.append_nil xs).symm, rfl⟩
  · obtain ⟨rfl, rfl⟩ := hinside ht
    exact ⟨List.append_nil ys, rfl⟩

end Dbml.Text
