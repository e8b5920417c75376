import Dbml.Json.Tree
import Dbml.Json.Printer
import Dbml.Proofs.Text.Splitting
import Dbml.Proofs.Traversal
import Mathlib.Data.Nat.Digits.Defs

/-!
# Printed tokens are read back

A string is escaped so that its token is read as the same text (`StringToken.scan_escaped`), and
the digits of an integer are a literal that stands for it (`Literal.scan_integerText`). An integer
of a word is its value (`Literal.value?_ofInteger`).
-/

namespace Dbml.Json

open Text (Stops)

/-! ## Strings -/

namespace StringToken

theorem hexValue?_hexDigit : ∀ n < 16, hexValue? (hexDigit n) = some n := by decide

/-- A control is escaped by its code unit. -/
theorem unicodeEscape_hexDigits {c : Char} (hc : c.toNat < 0x20) (cs : List Char) :
    unicodeEscape ('0' :: '0' :: hexDigit (c.toNat / 16) :: hexDigit (c.toNat % 16) :: cs) =
      .ok (c, cs) := by
  have hzero : hexValue? '0' = some 0 := by decide
  have hhigh := hexValue?_hexDigit (c.toNat / 16) (by omega)
  have hlow := hexValue?_hexDigit (c.toNat % 16) (by omega)
  have hunit : 4096 * 0 + 256 * 0 + 16 * (c.toNat / 16) + c.toNat % 16 = c.toNat := by omega
  have hcode : codeUnit ('0' :: '0' :: hexDigit (c.toNat / 16) :: hexDigit (c.toNat % 16) :: cs) =
      .ok (c.toNat, cs) := by
    simp only [codeUnit, hzero, hhigh, hlow, hunit]
  have hlone : ¬ (0xDC00 ≤ c.toNat ∧ c.toNat ≤ 0xDFFF) := by omega
  have hpair : ¬ (0xD800 ≤ c.toNat ∧ c.toNat ≤ 0xDBFF) := by omega
  rw [unicodeEscape, hcode]
  change (if _ then _ else if _ then _ else _) = _
  rw [if_neg hlone, if_neg hpair, Char.ofNat_toNat]
  rfl

/-- A character is kept, or it is what the escape after a backslash stands for. -/
theorem escapeChar_cases (c : Char) :
    (∃ e, escapeChar c = '\\' :: e ∧ ∀ cs, escaped (e ++ cs) = .ok (c, cs)) ∨
      escapeChar c = [c] ∧ c ≠ '"' ∧ c ≠ '\\' ∧ ¬ c.toNat < 0x20 := by
  have hnamed {n : Nat} {c e : Char} (hc : c.toNat = n) (he : Char.ofNat n = e) : c = e := by
    rw [← he, ← hc, Char.ofNat_toNat]
  unfold escapeChar
  split_ifs with hquote hslash hline hreturn htab hback hfeed hcontrol
  · exact .inl ⟨_, rfl, fun cs => by rw [hquote]; rfl⟩
  · exact .inl ⟨_, rfl, fun cs => by rw [hslash]; rfl⟩
  · exact .inl ⟨_, rfl, fun cs => by rw [hline]; rfl⟩
  · exact .inl ⟨_, rfl, fun cs => by rw [hreturn]; rfl⟩
  · exact .inl ⟨_, rfl, fun cs => by rw [htab]; rfl⟩
  · exact .inl ⟨_, rfl, fun cs => by rw [hnamed hback (e := '\x08') rfl]; rfl⟩
  · exact .inl ⟨_, rfl, fun cs => by rw [hnamed hfeed (e := '\x0c') rfl]; rfl⟩
  · exact .inl ⟨_, rfl, fun cs => unicodeEscape_hexDigits hcontrol cs⟩
  · exact .inr ⟨rfl, hquote, hslash, hcontrol⟩

/-- An escaped character is read as itself. -/
theorem read_escapeChar (fuel : Nat) (c : Char) (cs : List Char) :
    read (fuel + 1) (escapeChar c ++ cs) = (fun (s, rest) => (c :: s, rest)) <$> read fuel cs := by
  rcases escapeChar_cases c with ⟨e, he, hescaped⟩ | ⟨hkept, hquote, hslash, hcontrol⟩
  · rw [he, List.cons_append, read, if_neg (by decide), if_pos rfl, hescaped]
    rfl
  · rw [hkept, List.cons_append, List.nil_append, read, if_neg hquote, if_neg hslash,
      if_neg hcontrol]
    rfl

theorem read_escaped {fuel : Nat} {cs : List Char} (h : cs.length < fuel) (rest : List Char) :
    read fuel (cs.flatMap escapeChar ++ '"' :: rest) = .ok (cs, rest) := by
  induction cs generalizing fuel with
  | nil =>
    cases fuel with
    | zero => omega
    | succ fuel => rfl
  | cons c cs ih =>
    cases fuel with
    | zero => omega
    | succ fuel =>
      rw [List.flatMap_cons, List.append_assoc, read_escapeChar, ih (Nat.lt_of_succ_lt_succ h)]
      rfl

theorem length_le_escaped (cs : List Char) : cs.length ≤ (cs.flatMap escapeChar).length := by
  induction cs with
  | nil => exact Nat.le_refl _
  | cons c cs ih =>
    have hc : 0 < (escapeChar c).length := by
      rcases escapeChar_cases c with ⟨e, he, -⟩ | ⟨hkept, -⟩
      · exact he ▸ Nat.succ_pos _
      · exact hkept ▸ Nat.one_pos
    rw [List.flatMap_cons, List.length_append, List.length_cons]
    omega

theorem scan_escaped (s : String) (rest : List Char) :
    scan (s.toList.flatMap escapeChar ++ '"' :: rest) = (.text s, rest) := by
  have hlen : s.toList.length <
      (s.toList.flatMap escapeChar ++ '"' :: rest).length + 1 := by
    have hle := length_le_escaped s.toList
    rw [List.length_append]
    omega
  rw [scan, read_escaped hlen]
  exact congrArg (fun t => (StringToken.text t, rest)) String.ofList_toList

end StringToken

/-! ## Integers -/

/-- A character that a number could go on with. -/
def ContinuesNumber (c : Char) : Prop := c.isDigit = true ∨ c ∈ ['.', 'e', 'E']

instance : DecidablePred ContinuesNumber := fun _ => inferInstanceAs (Decidable (_ ∨ _))

namespace Literal

/-- The literal of the digits of an integer. -/
def ofInteger (n : Int) : Literal where
  negative := n < 0
  whole := (Nat.toDigits 10 n.natAbs).map digitValue
  fraction := []
  exponent := none

theorem isDigit_of_mem {n : Nat} {c : Char} (h : c ∈ Nat.toDigits 10 n) : c.isDigit = true :=
  Nat.isDigit_of_mem_toDigits (by decide) (by decide) h

/-- Only zero starts with a zero. -/
theorem head?_toDigits_ne {n : Nat} (h : 0 < n) : (Nat.toDigits 10 n).head? ≠ some '0' := by
  have hdigit : ∀ n < 10, 0 < n → [n.digitChar].head? ≠ some '0' := by decide
  induction n using Nat.strong_induction_on with
  | h n ih =>
    rw [Nat.toDigits_eq_if (by decide)]
    split
    · rename_i hn
      exact hdigit n hn h
    · rw [List.head?_append_of_ne_nil _ Nat.toDigits_ne_nil]
      exact ih (n / 10) (by omega) (by omega)

theorem toNat_of_isDigit {c : Char} (h : c.isDigit = true) : 48 ≤ c.toNat ∧ c.toNat ≤ 57 := by
  simp only [Char.isDigit, Bool.and_eq_true, decide_eq_true_eq, ge_iff_le,
    UInt32.le_iff_toNat_le] at h
  exact h

theorem digitValue_lt {c : Char} (h : c.isDigit = true) : digitValue c < 10 := by
  have hcode := toNat_of_isDigit h
  rw [digitValue]
  omega

theorem eq_zero_of_digitValue {c : Char} (hc : c.isDigit = true) (h : digitValue c = 0) :
    c = '0' := by
  have hcode := toNat_of_isDigit hc
  have hzero : c.toNat = 48 := by
    rw [digitValue] at h
    omega
  rw [← Char.ofNat_toNat c, hzero]

theorem takeDigits_toDigits (n : Nat) {rest : List Char} (h : Stops (·.isDigit = true) rest) :
    takeDigits (Nat.toDigits 10 n ++ rest) = ((Nat.toDigits 10 n).map digitValue, rest) := by
  have hdigits : ∀ c ∈ Nat.toDigits 10 n, c.isDigit = true := fun c hc => isDigit_of_mem hc
  have htake : rest.takeWhile Char.isDigit = [] := by
    cases rest with
    | nil => rfl
    | cons c cs => exact List.takeWhile_cons_of_neg (h c rfl)
  have hdrop : rest.dropWhile Char.isDigit = rest := by
    cases rest with
    | nil => rfl
    | cons c cs => exact List.dropWhile_cons_of_neg (h c rfl)
  rw [takeDigits, List.takeWhile_append_of_pos hdigits, List.dropWhile_append_of_pos hdigits, htake,
    hdrop, List.append_nil]

theorem scanWhole_toDigits (n : Nat) {rest : List Char} (h : Stops (·.isDigit = true) rest) :
    scanWhole (Nat.toDigits 10 n ++ rest) = .ok ((Nat.toDigits 10 n).map digitValue, rest) := by
  have hzero (d : Nat) (ds : List Nat) : (Nat.toDigits 10 n).map digitValue ≠ 0 :: d :: ds := by
    intro hmap
    obtain ⟨c, cs, hcs, hc, htail⟩ := List.map_eq_cons_iff.mp hmap
    have hmem : c ∈ Nat.toDigits 10 n := hcs ▸ List.mem_cons_self
    obtain rfl := eq_zero_of_digitValue (isDigit_of_mem hmem) hc
    rcases Nat.eq_zero_or_pos n with rfl | hn
    · obtain rfl := (List.cons.inj (Nat.toDigits_zero 10 ▸ hcs)).2
      cases htail
    · exact head?_toDigits_ne hn (by rw [hcs]; rfl)
  have hnil : (Nat.toDigits 10 n).map digitValue ≠ [] :=
    List.map_eq_nil_iff.not.mpr Nat.toDigits_ne_nil
  rw [scanWhole, takeDigits_toDigits n h]
  split
  · rename_i heq
    exact absurd (Prod.mk.inj heq).1 hnil
  · rename_i heq
    exact absurd (Prod.mk.inj heq).1 (hzero _ _)
  · rename_i heq
    obtain ⟨rfl, rfl⟩ := Prod.mk.inj heq
    rfl

/-- What comes after a number is neither a fraction nor an exponent. -/
theorem scanFraction_of_stops {rest : List Char} (h : Stops ContinuesNumber rest) :
    scanFraction rest = .ok ([], rest) := by
  unfold scanFraction
  split
  · exact absurd (.inr (by decide)) (h '.' rfl)
  · rfl

theorem scanExponent_of_stops {rest : List Char} (h : Stops ContinuesNumber rest) :
    scanExponent rest = .ok (none, rest) := by
  cases rest with
  | nil => rfl
  | cons c cs =>
    refine if_neg ?_
    rintro (rfl | rfl) <;> exact h _ rfl (.inr (by decide))

/-- A literal without a sign. -/
theorem scan_unsigned {cs : List Char} (h : cs.head? ≠ some '-') :
    scan cs = (do
      let (whole, cs) ← scanWhole cs
      let (fraction, cs) ← scanFraction cs
      let (exponent, cs) ← scanExponent cs
      return (⟨false, whole, fraction, exponent⟩, cs)) := by
  cases cs with
  | nil => rfl
  | cons c cs =>
    unfold scan
    split
    · rename_i hsign
      split at hsign
      · rename_i hcs
        exact absurd (congrArg List.head? hcs) h
      · obtain ⟨rfl, rfl⟩ := Prod.mk.inj hsign
        rfl

/-- The text of an integer is its literal, up to a character that no number goes on with. -/
theorem scan_integerText (n : Int) {rest : List Char} (h : Stops ContinuesNumber rest) :
    scan ((Number.integerText n).toList ++ rest) = .ok (.ofInteger n, rest) := by
  have hparts (negative : Bool) : (do
      let (whole, cs) ← scanWhole (Nat.toDigits 10 n.natAbs ++ rest)
      let (fraction, cs) ← scanFraction cs
      let (exponent, cs) ← scanExponent cs
      return ((⟨negative, whole, fraction, exponent⟩ : Literal), cs)) =
        .ok (⟨negative, (Nat.toDigits 10 n.natAbs).map digitValue, [], none⟩, rest) :=
    bind_eq_ok_iff.mpr ⟨_, scanWhole_toDigits n.natAbs fun c hc hd => h c hc (.inl hd),
      bind_eq_ok_iff.mpr ⟨_, scanFraction_of_stops h,
        bind_eq_ok_iff.mpr ⟨_, scanExponent_of_stops h, rfl⟩⟩⟩
  unfold Number.integerText
  split
  · rename_i hn
    rw [String.toList_append, Nat.toList_repr, ofInteger, decide_eq_true hn]
    exact hparts true
  · rename_i hn
    rw [Nat.toList_repr, ofInteger, decide_eq_false hn]
    have hunsigned : (Nat.toDigits 10 n.natAbs ++ rest).head? ≠ some '-' := by
      rw [List.head?_append_of_ne_nil _ Nat.toDigits_ne_nil]
      exact fun hc => absurd (isDigit_of_mem (List.mem_of_mem_head? hc)) (by decide)
    rw [scan_unsigned hunsigned]
    exact hparts false

theorem ofDigits_toDigits (n : Nat) : ofDigits ((Nat.toDigits 10 n).map digitValue) = n := by
  have hvalue : ofDigits ((Nat.toDigits 10 n).map digitValue) =
      Nat.ofDigitChars 10 (Nat.toDigits 10 n) 0 := by
    rw [ofDigits, List.foldl_map, Nat.ofDigitChars_eq_foldl]
    rfl
  rw [hvalue, Nat.ofDigitChars_ten_toDigits]

theorem le_foldl_digits (n : Nat) (ds : List Nat) : n ≤ ds.foldl (fun n d => 10 * n + d) n := by
  induction ds generalizing n with
  | nil => exact Nat.le_refl n
  | cons d ds ih => exact Nat.le_trans (by omega) (ih (10 * n + d))

/-- Digits of an unsigned word all fit one. -/
theorem fill_eq {n : Nat} {ds : List Nat}
    (h : ds.foldl (fun n d => 10 * n + d) n < 0x10000000000000000) :
    fill n ds = (ds.foldl (fun n d => 10 * n + d) n, []) := by
  induction ds generalizing n with
  | nil => rfl
  | cons d ds ih =>
    have hle := le_foldl_digits (10 * n + d) ds
    rw [List.foldl_cons] at h
    rw [fill, if_pos (by omega), ih h]
    rfl

/-- The literal of an integer of a word stands for it. -/
theorem value?_ofInteger {n : Int} (h : Number.IsWord n) :
    (ofInteger n).value? = some (.integer n) := by
  have hdigits := ofDigits_toDigits n.natAbs
  have hfill : fill 0 (ofInteger n).whole = (n.natAbs, []) := by
    have hword : ofDigits (ofInteger n).whole < 0x10000000000000000 := by
      have := h.1
      have := h.2
      rw [ofInteger, hdigits]
      omega
    rw [fill_eq hword]
    exact congrArg (·, []) hdigits
  have hsigned : (if (ofInteger n).negative then -(n.natAbs : Int) else n.natAbs) = n := by
    simp only [ofInteger, decide_eq_true_eq]
    omega
  have hzero : ¬ ((ofInteger n).negative = true ∧ n.natAbs = 0) := by
    rw [ofInteger, decide_eq_true_iff]
    omega
  have hsignedWord : Number.IsWord (if (ofInteger n).negative then -(n.natAbs : Int) else n.natAbs) := by
    rwa [hsigned]
  rw [value?, hfill]
  refine (if_pos ⟨rfl, rfl, rfl, hsignedWord, hzero⟩).trans ?_
  rw [hsigned]

end Literal

end Dbml.Json
