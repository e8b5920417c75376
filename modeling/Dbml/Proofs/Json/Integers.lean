import Dbml.Proofs.Json.Printed
import Dbml.Proofs.Json.Token

/-!
# Integer literals

An integer has one literal without superfluous characters (`isIntegerLiteral_iff`), its text. The
literal stands for the integer if that is one of a word. Beyond that it stands for a binary64
number or for none (`Literal.exists_value?_of_not_isWord`), and the text of such a number is not
that of an integer, since it has a point or an exponent (`Number.text_float_ne`).
-/

namespace Dbml

namespace Json

/-! ## Canonical literals -/

/-- Digits that start with a zero only if that is all. -/
structure IsNumeral (cs : List Char) : Prop where
  ne_nil : cs ≠ []
  digits : ∀ c ∈ cs, c.isDigit = true
  leading : cs.head? = some '0' → cs = ['0']

/-- A numeral, or one other than zero after a minus. -/
def IsIntegerLiteral (s : String) : Prop :=
  IsNumeral s.toList ∨ ∃ cs, s.toList = '-' :: cs ∧ IsNumeral cs ∧ cs ≠ ['0']

namespace Literal

theorem digitChar_digitValue {c : Char} (h : c.isDigit = true) : (digitValue c).digitChar = c := by
  have hcode := toNat_of_isDigit h
  rw [← Char.toNat_inj, Nat.toNat_digitChar_of_lt_ten (digitValue_lt h), digitValue]
  omega

/-- Digits after a number other than zero. -/
theorem toDigits_foldl {n : Nat} (hn : 0 < n) {cs : List Char} (h : ∀ c ∈ cs, c.isDigit = true) :
    Nat.toDigits 10 (cs.foldl (fun n c => 10 * n + digitValue c) n) = Nat.toDigits 10 n ++ cs := by
  induction cs generalizing n with
  | nil => exact (List.append_nil _).symm
  | cons c cs ih =>
    obtain ⟨hc, hcs⟩ := List.forall_mem_cons.mp h
    have hlast := Nat.toDigits_append_toDigits (b := 10) (by decide) hn (digitValue_lt hc)
    rw [Nat.toDigits_of_lt_base (digitValue_lt hc), digitChar_digitValue hc] at hlast
    rw [List.foldl_cons, ih (by omega) hcs, ← hlast, List.append_assoc]
    rfl

end Literal

/-- A numeral is the digits of a number. -/
theorem isNumeral_iff {cs : List Char} : IsNumeral cs ↔ ∃ n, cs = Nat.toDigits 10 n := by
  constructor
  · rintro ⟨hne, hdigits, hleading⟩
    obtain ⟨c, cs, rfl⟩ := List.exists_cons_of_ne_nil hne
    obtain ⟨hc, hcs⟩ := List.forall_mem_cons.mp hdigits
    by_cases hzero : c = '0'
    · subst hzero
      exact ⟨0, by rw [hleading rfl, Nat.toDigits_zero]⟩
    · have hpos : 0 < Literal.digitValue c :=
        Nat.pos_of_ne_zero fun h => hzero (Literal.eq_zero_of_digitValue hc h)
      have hfold := Literal.toDigits_foldl hpos hcs
      rw [Nat.toDigits_of_lt_base (Literal.digitValue_lt hc), Literal.digitChar_digitValue hc] at hfold
      exact ⟨_, hfold.symm⟩
  · rintro ⟨n, rfl⟩
    refine ⟨Nat.toDigits_ne_nil, fun c hc => Literal.isDigit_of_mem hc, fun h => ?_⟩
    rcases Nat.eq_zero_or_pos n with rfl | hn
    · exact Nat.toDigits_zero 10
    · exact absurd h (Literal.head?_toDigits_ne hn)

theorem Number.toList_integerText (n : Int) : (integerText n).toList =
    if n < 0 then '-' :: Nat.toDigits 10 n.natAbs else Nat.toDigits 10 n.natAbs := by
  unfold integerText
  split
  · rw [String.toList_append, Nat.toList_repr]
    rfl
  · exact Nat.toList_repr

/-- A literal of an integer is the text of one. -/
theorem isIntegerLiteral_iff {s : String} :
    IsIntegerLiteral s ↔ ∃ n, s = Number.integerText n := by
  simp only [IsIntegerLiteral, ← String.toList_inj, Number.toList_integerText, isNumeral_iff]
  constructor
  · rintro (⟨n, hn⟩ | ⟨_, hs, ⟨n, rfl⟩, hzero⟩)
    · exact ⟨n, by rw [hn, if_neg (by omega), Int.natAbs_natCast]⟩
    · have hpos : n ≠ 0 := by
        rintro rfl
        exact hzero (Nat.toDigits_zero 10)
      exact ⟨-n, by rw [hs, if_pos (by omega), Int.natAbs_neg, Int.natAbs_natCast]⟩
  · rintro ⟨n, hn⟩
    split at hn
    · refine .inr ⟨_, hn, ⟨_, rfl⟩, fun hzero => ?_⟩
      have hdigits := Literal.ofDigits_toDigits n.natAbs
      rw [hzero] at hdigits
      have : n.natAbs = 0 := hdigits.symm
      omega
    · exact .inl ⟨_, hn⟩

theorem Number.integerText_injective : Function.Injective integerText := by
  intro n n' h
  have hscan := Literal.scan_integerText n Text.stops_nil
  rw [h, Literal.scan_integerText n' Text.stops_nil] at hscan
  obtain ⟨hsign, hdigits, -⟩ := Literal.mk.inj (Prod.mk.inj (Except.ok.inj hscan)).1
  have hsize := congrArg Literal.ofDigits hdigits
  rw [Literal.ofDigits_toDigits, Literal.ofDigits_toDigits] at hsize
  have hsign := decide_eq_decide.mp hsign
  omega

/-! ## Integers beyond a word -/

namespace Literal

/-- Digits that are all taken are the digits of the number. -/
theorem eq_foldl_of_fill {n m : Nat} {ds : List Nat} (h : fill n ds = (m, [])) :
    m = ds.foldl (fun n d => 10 * n + d) n := by
  induction ds generalizing n with
  | nil => exact (Prod.mk.inj h).1.symm
  | cons d ds ih =>
    rw [fill] at h
    split at h
    · exact ih h
    · exact absurd (Prod.mk.inj h).2 (List.cons_ne_nil d ds)

/-- The literal of any other integer stands for a binary64 number, or for none. -/
theorem exists_value?_of_not_isWord {n : Int} (h : ¬ Number.IsWord n) :
    ∃ x : Option Binary64, (ofInteger n).value? = x.map .float := by
  rcases hfill : fill 0 (ofInteger n).whole with ⟨significand, uncounted⟩
  rw [value?, hfill]
  dsimp only
  generalize hsigned :
    (if (ofInteger n).negative then -(significand : Int) else significand) = signed
  split
  · rename_i hword
    obtain ⟨-, -, huncounted, hword, -⟩ := hword
    obtain rfl := List.isEmpty_iff.mp huncounted
    have hdigits : significand = n.natAbs :=
      (eq_foldl_of_fill hfill).trans (ofDigits_toDigits n.natAbs)
    have hvalue : signed = n := by
      rw [← hsigned]
      simp only [ofInteger, decide_eq_true_eq]
      omega
    exact absurd (hvalue ▸ hword) h
  · exact ⟨_, rfl⟩

end Literal

end Json

/-! ## Texts of binary64 numbers -/

theorem Decimal.point_mem_positional (d : Decimal) : '.' ∈ d.positional.toList := by
  rw [positional, String.toList_ofList]
  split
  · simp
  · split <;> simp

theorem Decimal.mark_mem_scientific (d : Decimal) : 'e' ∈ d.scientific.toList := by
  simp only [scientific, String.toList_append, List.mem_append]
  refine .inl (.inr ?_)
  split <;> decide

theorem Binary64.mark_mem_write (isPositional : Int → Bool) (x : Binary64) :
    ∃ c ∈ (x.write isPositional).toList, c = '.' ∨ c = 'e' := by
  have htext : ∃ c ∈ (if isPositional x.shortest.leading then x.shortest.positional
      else x.shortest.scientific).toList, c = '.' ∨ c = 'e' := by
    split
    · exact ⟨'.', Decimal.point_mem_positional _, .inl rfl⟩
    · exact ⟨'e', Decimal.mark_mem_scientific _, .inr rfl⟩
  obtain ⟨c, hc, hmark⟩ := htext
  refine ⟨c, ?_, hmark⟩
  simp only [write]
  split
  · rw [String.toList_append]
    exact List.mem_append_right _ hc
  · exact hc

/-- A binary64 number is not written like an integer. -/
theorem Json.Number.text_float_ne (x : Binary64) (n : Int) : (float x).text ≠ integerText n := by
  obtain ⟨c, hc, hmark⟩ := x.mark_mem_write fun e => -5 ≤ e ∧ e < 16
  intro h
  replace hc : c ∈ (integerText n).toList := h ▸ hc
  have hinteger : c = '-' ∨ c.isDigit = true := by
    rw [toList_integerText] at hc
    split at hc
    · exact (List.mem_cons.mp hc).imp_right Literal.isDigit_of_mem
    · exact .inr (Literal.isDigit_of_mem hc)
  rcases hmark with rfl | rfl <;> revert hinteger <;> decide

end Dbml
