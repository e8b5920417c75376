import Dbml.Proofs.Text.Splitting
import Dbml.Text.Lowercase

/-!
# Words and lines

Names are words (`IsWord`): the punctuation that a document puts around them is not
part of them. Putting a word in lower case may leave the words, but adds no blank
(`IsToken.lowercase`). Other texts are arbitrary except that they are on one line
(`OneLine`).
-/

namespace Dbml.Text

/-- A letter, a digit or an underscore; anything beyond ASCII counts as a letter. -/
def IsWordChar (c : Char) : Prop := c.isAlphanum = true ∨ c = '_' ∨ 0x80 ≤ c.toNat

instance : DecidablePred IsWordChar := fun _ => inferInstanceAs (Decidable (_ ∨ _ ∨ _))

def IsWord (s : String) : Prop := ∀ c ∈ s.toList, IsWordChar c

/-- No blank and no line feed. -/
def IsToken (s : String) : Prop := ∀ c ∈ s.toList, c ≠ ' ' ∧ c ≠ '\n'

def OneLine (s : String) : Prop := '\n' ∉ s.toList

-- by a walk over the text, and not over all characters
instance (s : String) : Decidable (IsWord s) := List.decidableBAll _ _

instance (s : String) : Decidable (IsToken s) := List.decidableBAll _ _

instance (s : String) : Decidable (OneLine s) := inferInstanceAs (Decidable (_ ∉ _))

theorem IsWordChar.ne {c c' : Char} (h : IsWordChar c) (h' : ¬ IsWordChar c') : c ≠ c' :=
  fun hc => h' (hc ▸ h)

theorem IsWord.ne_of_mem {s : String} (h : IsWord s) {c : Char} (hc : ¬ IsWordChar c) :
    ∀ a ∈ s.toList, a ≠ c := fun a ha => (h a ha).ne hc

theorem IsWord.isToken {s : String} (h : IsWord s) : IsToken s :=
  fun c hc => ⟨h.ne_of_mem (by decide) c hc, h.ne_of_mem (by decide) c hc⟩

theorem IsToken.oneLine {s : String} (h : IsToken s) : OneLine s := fun hc => (h _ hc).2 rfl

theorem IsWord.oneLine {s : String} (h : IsWord s) : OneLine s := h.isToken.oneLine

theorem IsWord.append {s t : String} (hs : IsWord s) (ht : IsWord t) : IsWord (s ++ t) := by
  intro c hc
  rw [String.toList_append, List.mem_append] at hc
  exact hc.elim (hs c) (ht c)

theorem IsToken.append {s t : String} (hs : IsToken s) (ht : IsToken t) : IsToken (s ++ t) := by
  intro c hc
  rw [String.toList_append, List.mem_append] at hc
  exact hc.elim (hs c) (ht c)

@[simp] theorem oneLine_append {s t : String} : OneLine (s ++ t) ↔ OneLine s ∧ OneLine t := by
  simp [OneLine, not_or]

theorem OneLine.intercalate {separator : String} (hs : OneLine separator) {xs : List String}
    (hx : ∀ x ∈ xs, OneLine x) : OneLine (separator.intercalate xs) := by
  cases xs with
  | nil => exact List.not_mem_nil
  | cons x xs =>
    obtain ⟨hx, hxs⟩ := List.forall_mem_cons.mp hx
    rw [OneLine, toList_intercalate_cons, List.mem_append, not_or]
    refine ⟨hx, fun h => ?_⟩
    obtain ⟨y, hy, h⟩ := List.mem_flatMap.mp h
    exact (List.mem_append.mp h).elim hs (hxs y hy)

/-! ## Lower case -/

/-- A number beyond `c` is not the code of `c`; those that are no code are taken for zero. -/
theorem ofNat_ne {n : Nat} {c : Char} (hc : c ≠ '\x00') (h : c.toNat < n) : Char.ofNat n ≠ c := by
  rintro rfl
  by_cases hv : n.isValidChar
  · have hn : (Char.ofNat n).toNat = n := by
      rw [Char.ofNat, dif_pos hv]
      rfl
    exact absurd h (by rw [hn]; exact Nat.lt_irrefl n)
  · exact hc (by rw [Char.ofNat, dif_neg hv]; rfl)

/-- Lower case is mapped to what is beyond the blank. -/
theorem lowercaseRuns_beyond : ∀ run ∈ lowercaseRuns, 32 < run.first + run.offset := by
  decide +kernel

theorem toLower_ne : ∀ n < 128, IsWordChar (Char.ofNat n) →
    (Char.ofNat n).toLower ≠ ' ' ∧ (Char.ofNat n).toLower ≠ '\n' := by
  decide

theorem lowerChar_ne {c : Char} (h : IsWordChar c) : lowerChar c ≠ ' ' ∧ lowerChar c ≠ '\n' := by
  unfold lowerChar
  split
  · rename_i hc
    have ha := toLower_ne c.toNat hc
    rw [Char.ofNat_toNat] at ha
    exact ha h
  · split
    · rename_i run hrun
      have hb := lowercaseRuns_beyond run (List.mem_of_find?_eq_some hrun)
      have hfirst := List.find?_some hrun
      simp only [Bool.and_eq_true, decide_eq_true_eq] at hfirst
      exact ⟨ofNat_ne (by decide) (by change 32 < _; omega),
        ofNat_ne (by decide) (by change 10 < _; omega)⟩
    · exact ⟨h.ne (by decide), h.ne (by decide)⟩

theorem toLower_eq_newline : ∀ n < 128, (Char.ofNat n).toLower = '\n' → Char.ofNat n = '\n' := by
  decide

/-- Only a line feed is mapped to one. -/
theorem lowerChar_eq_newline {c : Char} (h : lowerChar c = '\n') : c = '\n' := by
  unfold lowerChar at h
  split at h
  · rename_i hc
    have hn := toLower_eq_newline c.toNat hc
    rw [Char.ofNat_toNat] at hn
    exact hn h
  · split at h
    · rename_i run hrun
      have hbeyond := lowercaseRuns_beyond run (List.mem_of_find?_eq_some hrun)
      have hfirst := List.find?_some hrun
      simp only [Bool.and_eq_true, decide_eq_true_eq] at hfirst
      exact absurd h (ofNat_ne (by decide) (by change 10 < _; omega))
    · exact h

theorem mem_lowercaseFrom {before cs : List Char} {c : Char} (h : c ∈ lowercaseFrom before cs) :
    c ∈ ['ς', 'σ', 'i', '\u0307'] ∨ ∃ c' ∈ cs, c = lowerChar c' := by
  induction cs generalizing before with
  | nil => cases h
  | cons x cs ih =>
    rw [lowercaseFrom, List.mem_append] at h
    rcases h with h | h
    · split at h
      · split at h <;> exact .inl (by simp_all)
      · split at h
        · exact .inl (by simp_all)
        · exact .inr ⟨x, List.mem_cons_self, List.mem_singleton.mp h⟩
    · obtain hc | ⟨c', hc', rfl⟩ := ih h
      · exact .inl hc
      · exact .inr ⟨c', List.mem_cons_of_mem _ hc', rfl⟩

theorem IsWord.isToken_lowercase {s : String} (h : IsWord s) : IsToken (lowercase s) := by
  intro c hc
  rw [lowercase, String.toList_ofList] at hc
  rcases mem_lowercaseFrom hc with hc | ⟨c', hc', rfl⟩
  · have hspecial : IsToken (String.ofList ['ς', 'σ', 'i', '\u0307']) := by decide
    exact hspecial c (by rwa [String.toList_ofList])
  · exact lowerChar_ne (h c' hc')

theorem OneLine.lowercase {s : String} (h : OneLine s) : OneLine (lowercase s) := by
  rw [OneLine, Text.lowercase, String.toList_ofList]
  intro hn
  rcases mem_lowercaseFrom hn with hn | ⟨c, hc, hn⟩
  · exact absurd hn (by decide)
  · exact h (lowerChar_eq_newline hn.symm ▸ hc)

end Dbml.Text
