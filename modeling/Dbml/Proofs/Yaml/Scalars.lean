import Dbml.Proofs.Json.Scanned
import Dbml.Yaml.Scalar

/-!
# Printed scalars as YAML

A quoted text of printable characters is read as the same text by the rules of YAML
(`quotedScalar_stringChars`), and a word is read up to where it ends (`plainScalar_word`). The
words of a printed value look like what they are: nothing, truth or falsehood, and integers
(`resolvePlain_integerText`).
-/

namespace Dbml.Text

/-- A printable character of ASCII. -/
def IsPrintableChar (c : Char) : Prop := 0x20 ≤ c.toNat ∧ c.toNat ≤ 0x7E

instance : DecidablePred IsPrintableChar := fun _ => inferInstanceAs (Decidable (_ ∧ _))

/-- A text of printable characters of ASCII. -/
def IsPrintable (s : String) : Prop := ∀ c ∈ s.toList, IsPrintableChar c

instance (s : String) : Decidable (IsPrintable s) := List.decidableBAll _ _

theorem IsPrintableChar.ne {c c' : Char} (h : IsPrintableChar c) (h' : ¬ IsPrintableChar c') :
    c ≠ c' := fun hc => h' (hc ▸ h)

end Dbml.Text

namespace Dbml.Yaml

open Data (Found)
open Json (Number escapeChar stringChars)
open Text (IsPrintable IsPrintableChar)

/-! ## Cursors -/

namespace Cursor

variable {c : Cursor} {ch : Char} {cs : List Char}

theorem skip_eq (h : c.rest = ch :: cs) : c.skip =
    { c with rest := cs, index := c.index + ch.utf8Size, column := c.column + 1 } := by
  rw [skip, h]

@[simp] theorem line_skip (c : Cursor) : c.skip.line = c.line := by
  rw [skip]
  split <;> rfl

@[simp] theorem rest_skip (c : Cursor) : c.skip.rest = c.rest.tail := by
  rw [skip]
  split <;> simp_all

@[simp] theorem line_skipN (c : Cursor) (n : Nat) : (c.skipN n).line = c.line := by
  induction n generalizing c with
  | zero => rfl
  | succ n ih => rw [skipN, ih, line_skip]

@[simp] theorem rest_skipN (c : Cursor) (n : Nat) : (c.skipN n).rest = c.rest.drop n := by
  induction n generalizing c with
  | zero => rfl
  | succ n ih => rw [skipN, ih, rest_skip, List.drop_tail]

theorem skipN_add (c : Cursor) (n m : Nat) : c.skipN (n + m) = (c.skipN n).skipN m := by
  induction n generalizing c with
  | zero => rw [Nat.zero_add, skipN]
  | succ n ih => rw [Nat.succ_add, skipN, ih, skipN]

/-- A character takes four octets at most. -/
theorem index_skipN_le (c : Cursor) (n : Nat) : (c.skipN n).index ≤ c.index + 4 * n := by
  induction n generalizing c with
  | zero => exact Nat.le_refl _
  | succ n ih =>
    have hskip : c.skip.index ≤ c.index + 4 := by
      rw [skip]
      split
      · exact Nat.le_add_right _ _
      · exact Nat.add_le_add_left (Char.utf8Size_le_four _) _
    have := ih c.skip
    rw [skipN]
    omega

theorem skipWhile_of_next? {p : Char → Bool} (h : ∀ ch ∈ c.next?, p ch = false) :
    c.skipWhile p = c := by
  obtain ⟨rest, index, line, column⟩ := c
  cases rest with
  | nil => rfl
  | cons ch cs =>
    have htake : (ch :: cs).takeWhile p = [] :=
      List.takeWhile_cons_of_neg (Bool.eq_false_iff.mp (h ch rfl))
    simp only [skipWhile, htake]
    rfl

theorem column_skip_pos (h : c.rest = ch :: cs) : 0 < c.skip.column := by
  rw [skip_eq h]
  exact Nat.succ_pos _

theorem column_skipN_pos (h : 0 < c.column) (n : Nat) : 0 < (c.skipN n).column := by
  induction n generalizing c with
  | zero => exact h
  | succ n ih =>
    refine ih ?_
    rw [skip]
    split
    · exact h
    · exact Nat.succ_pos _

theorem atMark_of_pos (h : 0 < c.column) (mark : Char) : c.atMark mark = false := by
  rw [atMark, beq_eq_false_iff_ne.mpr h.ne']
  rfl

theorem atMark_of_ne {mark : Char} (h : c.rest = ch :: cs) (hch : ch ≠ mark) :
    c.atMark mark = false := by
  simp [atMark, h, hch]

theorem atDocumentMark_of_pos (h : 0 < c.column) : c.atDocumentMark = false := by
  rw [atDocumentMark, atMark_of_pos h, atMark_of_pos h]
  rfl

end Cursor

/-! ## Quoted texts -/

namespace Scanned

variable {s : Scanned}

theorem text_settle_blank (h : s.pending.hasBreak = false) (c : Char) :
    (s.blank c).settle.text = c :: s.settle.text := by
  obtain ⟨text, pending⟩ := s
  cases pending with
  | nothing => rfl
  | blanks bs => simp [blank, settle, Pending.blank, Pending.text]
  | breaks => cases h

theorem hasBreak_blank (h : s.pending.hasBreak = false) (c : Char) :
    (s.blank c).pending.hasBreak = false := by
  obtain ⟨text, pending⟩ := s
  cases pending with
  | nothing | blanks => rfl
  | breaks => cases h

end Scanned

/-- How a printable character is escaped, if it is. -/
theorem escapeChar_of_printable {c : Char} (h : IsPrintableChar c) :
    (c = '"' ∨ c = '\\') ∧ escapeChar c = ['\\', c] ∨
      (c ≠ '"' ∧ c ≠ '\\') ∧ escapeChar c = [c] := by
  have hcontrol : ¬ c.toNat < 0x20 := Nat.not_lt.mpr h.1
  have hback : c.toNat ≠ 0x08 := by have := h.1; omega
  have hfeed : c.toNat ≠ 0x0C := by have := h.1; omega
  have hline : c ≠ '\n' := h.ne (by decide)
  have hreturn : c ≠ '\r' := h.ne (by decide)
  have htab : c ≠ '\t' := h.ne (by decide)
  unfold escapeChar
  by_cases hquote : c = '"'
  · exact .inl ⟨.inl hquote, by rw [if_pos hquote, hquote]⟩
  · by_cases hslash : c = '\\'
    · exact .inl ⟨.inr hslash, by rw [if_neg hquote, if_pos hslash, hslash]⟩
    · refine .inr ⟨⟨hquote, hslash⟩, ?_⟩
      rw [if_neg hquote, if_neg hslash, if_neg hline, if_neg hreturn, if_neg htab, if_neg hback,
        if_neg hfeed, if_neg hcontrol]

theorem isBreak_of_printable {c : Char} (h : IsPrintableChar c) : isBreak c = false := by
  simp only [isBreak, Bool.or_eq_false_iff, beq_eq_false_iff_ne]
  exact ⟨⟨⟨⟨h.ne (by decide), h.ne (by decide)⟩, h.ne (by decide)⟩, h.ne (by decide)⟩,
    h.ne (by decide)⟩

theorem isAllowed_of_printable {c : Char} (h : IsPrintableChar c) : isAllowed c = true := by
  simp [isAllowed, h.1, h.2]

/-- One character inside of quotes: it is read as itself, escaped or not. -/
theorem scanQuoted_escapeChar {c : Cursor} {ch : Char} {rest : List Char} {s : Scanned}
    (hch : IsPrintableChar ch) (hrest : c.rest = escapeChar ch ++ rest) (hpos : 0 < c.column)
    (hs : s.pending.hasBreak = false) (fuel : Nat) :
    ∃ s', s'.pending.hasBreak = false ∧ s'.settle.text = ch :: s.settle.text ∧
      scanQuoted false (fuel + 1) s c =
        scanQuoted false fuel s' (c.skipN (escapeChar ch).length) := by
  have hmark := Cursor.atDocumentMark_of_pos hpos
  have hbreak := isBreak_of_printable hch
  rcases escapeChar_of_printable hch with ⟨hescaped, hchars⟩ | ⟨⟨hquote, hslash⟩, hchars⟩
  · rw [hchars, List.cons_append] at hrest
    have hescape : scanEscape c = some (ch, c.skipN 2) := by
      have hnext : c.ahead? 1 = some ch := by
        rw [Cursor.ahead?, hrest]
        rfl
      rw [scanEscape, hnext]
      rcases hescaped with rfl | rfl <;> rfl
    refine ⟨s.push ch, rfl, rfl, ?_⟩
    have hblank : isBlank '\\' = false := by decide
    have hslash : isBreak '\\' = false := by decide
    rw [scanQuoted, hrest, hchars]
    simp [hmark, hblank, hslash, hbreak, hescape]
  · rw [hchars, List.singleton_append] at hrest
    rw [scanQuoted, hrest, hchars]
    simp only [hmark, hbreak, hquote, hslash, if_false, Bool.false_eq_true]
    split
    · exact ⟨s.blank ch, Scanned.hasBreak_blank hs ch, Scanned.text_settle_blank hs ch, rfl⟩
    · exact ⟨s.push ch, rfl, rfl, rfl⟩

theorem scanQuoted_escaped {cs rest : List Char} (hcs : ∀ ch ∈ cs, IsPrintableChar ch) {fuel : Nat}
    (hfuel : cs.length < fuel) {s : Scanned} {c : Cursor}
    (hrest : c.rest = cs.flatMap escapeChar ++ '"' :: rest) (hpos : 0 < c.column)
    (hs : s.pending.hasBreak = false) :
    scanQuoted false fuel s c = some (String.ofList (s.settle.text.reverse ++ cs),
      c.skipN ((cs.flatMap escapeChar).length + 1)) := by
  induction cs generalizing fuel s c with
  | nil =>
    obtain ⟨fuel, rfl⟩ : ∃ f, fuel = f + 1 := ⟨fuel - 1, by omega⟩
    have hblank : isBlank '"' = false := by decide
    have hbreak : isBreak '"' = false := by decide
    rw [List.flatMap_nil, List.nil_append] at hrest
    rw [scanQuoted, hrest, List.append_nil]
    simp [Cursor.atDocumentMark_of_pos hpos, hblank, hbreak, Scanned.value, Cursor.skipN]
  | cons ch cs ih =>
    obtain ⟨fuel, rfl⟩ : ∃ f, fuel = f + 1 := ⟨fuel - 1, by omega⟩
    obtain ⟨hch, hcs⟩ := List.forall_mem_cons.mp hcs
    rw [List.flatMap_cons, List.append_assoc] at hrest
    obtain ⟨s', hs', htext, hscan⟩ := scanQuoted_escapeChar hch hrest hpos hs fuel
    have hnext : (c.skipN (escapeChar ch).length).rest = cs.flatMap escapeChar ++ '"' :: rest := by
      rw [Cursor.rest_skipN, hrest, List.drop_left]
    rw [hscan, ih hcs (Nat.lt_of_succ_lt_succ hfuel) hnext (Cursor.column_skipN_pos hpos _) hs',
      htext, ← Cursor.skipN_add, List.flatMap_cons, List.length_append, Nat.add_assoc,
      List.reverse_cons, List.append_assoc]
    rfl

/-- A quoted text is read as it was printed. -/
theorem quotedScalar_stringChars {t : String} (ht : IsPrintable t) {c : Cursor} {rest : List Char}
    (hrest : c.rest = stringChars t ++ rest) :
    quotedScalar false c = some (t, c.skipN (stringChars t).length) := by
  rw [stringChars, List.cons_append, List.append_assoc] at hrest
  have hlen := Json.StringToken.length_le_escaped t.toList
  have hfuel : t.toList.length < c.rest.length + 1 := by
    rw [hrest, List.length_cons, List.length_append]
    omega
  have hinside : c.skip.rest = t.toList.flatMap escapeChar ++ '"' :: rest := by
    rw [Cursor.rest_skip, hrest]
    rfl
  rw [quotedScalar, scanQuoted_escaped ht hfuel hinside (Cursor.column_skip_pos hrest) rfl]
  have htext : String.ofList t.toList = t := String.ofList_toList
  rw [stringChars, List.length_cons, List.length_append, List.length_singleton]
  exact congrArg (fun x => some (x, _)) htext

/-! ## Words -/

/-- A character of the words of a printed value. -/
def IsWordChar (c : Char) : Prop := c.isAlphanum = true ∨ c = '-'

instance : DecidablePred IsWordChar := fun _ => inferInstanceAs (Decidable (_ ∨ _))

theorem IsWordChar.ne {c c' : Char} (h : IsWordChar c) (h' : ¬ IsWordChar c') : c ≠ c' :=
  fun hc => h' (hc ▸ h)

theorem IsWordChar.printable {c : Char} (h : IsWordChar c) : IsPrintableChar c := by
  rcases h with h | rfl
  · have between {a z : Char} (hlow : a.toNat ≤ c.toNat) (hhigh : c.toNat ≤ z.toNat)
        (ha : 0x20 ≤ a.toNat) (hz : z.toNat ≤ 0x7E) : IsPrintableChar c :=
      ⟨ha.trans hlow, hhigh.trans hz⟩
    change (c.isUpper || c.isLower || c.isDigit) = true at h
    rw [Bool.or_eq_true, Bool.or_eq_true] at h
    rcases h with (h | h) | h
    · obtain ⟨hlow, hhigh⟩ := of_decide_eq_true (p := 'A'.val ≤ c.val ∧ c.val ≤ 'Z'.val) h
      exact between hlow hhigh (by decide) (by decide)
    · obtain ⟨hlow, hhigh⟩ := Bool.and_eq_true_iff.mp h
      exact between (of_decide_eq_true hlow) (of_decide_eq_true hhigh) (by decide) (by decide)
    · obtain ⟨hlow, hhigh⟩ := Bool.and_eq_true_iff.mp h
      exact between (of_decide_eq_true hlow) (of_decide_eq_true hhigh) (by decide) (by decide)
  · decide

def IsWord (t : String) : Prop := ∀ c ∈ t.toList, IsWordChar c

-- by a walk over the text, and not over all characters
instance (t : String) : Decidable (IsWord t) := List.decidableBAll _ _

/-- Whether a word ends here: at the end of the text, or inside of brackets before a mark. -/
def EndsWord (flow : Bool) (rest : List Char) : Prop :=
  rest = [] ∨ flow = true ∧ ∃ c cs, rest = c :: cs ∧ c ∈ [',', ']', '\x7d']

theorem scanPlain_word {cs rest : List Char} (hcs : ∀ ch ∈ cs, IsWordChar ch) {flow : Bool}
    (hend : EndsWord flow rest) {fuel : Nat} (hfuel : cs.length < fuel) {s : Scanned} {c : Cursor}
    (hrest : c.rest = cs ++ rest) (hs : s.pending = .nothing) (indent : Int) :
    scanPlain flow indent fuel s c =
      some (String.ofList (s.text.reverse ++ cs), false, c.skipN cs.length) := by
  induction cs generalizing fuel s c with
  | nil =>
    obtain ⟨fuel, rfl⟩ : ∃ f, fuel = f + 1 := ⟨fuel - 1, by omega⟩
    have hplain : plainEnd s c = (String.ofList (s.text.reverse ++ []), false, c.skipN 0) := by
      rw [plainEnd, hs, List.append_nil]
      rfl
    rw [scanPlain, hrest, List.length_nil, ← hplain]
    rcases hend with rfl | ⟨rfl, ch, cs, rfl, hch⟩
    · rfl
    · simp only [List.mem_cons, List.not_mem_nil, or_false] at hch
      rcases hch with rfl | rfl | rfl <;> simp [hs, isBlank, isBreak, isFlowIndicator]
  | cons ch cs ih =>
    obtain ⟨fuel, rfl⟩ : ∃ f, fuel = f + 1 := ⟨fuel - 1, by omega⟩
    obtain ⟨hch, hcs⟩ := List.forall_mem_cons.mp hcs
    have hblank : isBlank ch = false := by
      simp only [isBlank, Bool.or_eq_false_iff, beq_eq_false_iff_ne]
      exact ⟨hch.ne (by decide), hch.ne (by decide)⟩
    have hbreak : isBreak ch = false := by
      simp only [isBreak, Bool.or_eq_false_iff, beq_eq_false_iff_ne]
      exact ⟨⟨⟨⟨hch.ne (by decide), hch.ne (by decide)⟩, hch.ne (by decide)⟩, hch.ne (by decide)⟩,
        hch.ne (by decide)⟩
    have hindicator : isFlowIndicator ch = false := by
      simp only [isFlowIndicator, Bool.or_eq_false_iff, beq_eq_false_iff_ne]
      exact ⟨⟨⟨⟨hch.ne (by decide), hch.ne (by decide)⟩, hch.ne (by decide)⟩, hch.ne (by decide)⟩,
        hch.ne (by decide)⟩
    have hcolon : ch ≠ ':' := hch.ne (by decide)
    have hnext : c.skip.rest = cs ++ rest := by
      rw [Cursor.rest_skip, hrest]
      rfl
    have hpush : (s.push ch).text.reverse = s.text.reverse ++ [ch] := by
      simp [Scanned.push, Scanned.settle, hs, Pending.text]
    rw [scanPlain, hrest]
    simp only [List.cons_append, hs, hblank, hbreak, hindicator, hcolon, ne_eq, not_true_eq_false,
      false_and, and_false, or_self, if_false, Bool.false_eq_true]
    rw [ih hcs (Nat.lt_of_succ_lt_succ hfuel) hnext rfl, hpush, List.append_assoc]
    rfl

/-- A word is read up to where it ends. -/
theorem plainScalar_word {t : String} (ht : IsWord t) {flow : Bool}
    {rest : List Char} (hend : EndsWord flow rest) {c : Cursor} (hrest : c.rest = t.toList ++ rest)
    (indent : Int) :
    plainScalar flow indent c = some (t, false, c.skipN t.toList.length) := by
  have hfuel : t.toList.length < c.rest.length + 1 := by
    rw [hrest, List.length_append]
    omega
  rw [plainScalar, scanPlain_word ht hend hfuel hrest rfl]
  have htext : String.ofList t.toList = t := String.ofList_toList
  exact congrArg (fun x => some (x, _, _)) htext

/-! ## What words look like -/

theorem hexValue?_of_isDigit {c : Char} (h : c.isDigit = true) :
    hexValue? c = some (Json.Literal.digitValue c) := by
  refine if_pos ?_
  simpa [Char.isDigit, Char.le_def] using h

theorem digitValue?_of_isDigit {c : Char} (h : c.isDigit = true) :
    digitValue? 10 c = some (Json.Literal.digitValue c) := by
  rw [digitValue?, hexValue?_of_isDigit h]
  exact if_pos (decide_eq_true (Json.Literal.digitValue_lt h))

theorem foldlM_digits {cs : List Char} (h : ∀ c ∈ cs, c.isDigit = true) (n : Nat) :
    cs.foldlM (fun n c => (digitValue? 10 c).map (10 * n + ·)) n =
      some ((cs.map Json.Literal.digitValue).foldl (fun n d => 10 * n + d) n) := by
  induction cs generalizing n with
  | nil => rfl
  | cons c cs ih =>
    obtain ⟨hc, hcs⟩ := List.forall_mem_cons.mp h
    rw [List.foldlM_cons, digitValue?_of_isDigit hc]
    exact ih hcs _

theorem natural?_toDigits (n : Nat) : natural? 10 (Nat.toDigits 10 n) = some n := by
  have hnil : (Nat.toDigits 10 n).isEmpty = false :=
    List.isEmpty_eq_false_iff.mpr Nat.toDigits_ne_nil
  rw [natural?, hnil, if_neg (by decide), foldlM_digits fun c hc => Json.Literal.isDigit_of_mem hc]
  exact congrArg some (Json.Literal.ofDigits_toDigits n)

/-- Printed digits have no zero in front, unless that is all. -/
theorem isPaddedDigits_toDigits (n : Nat) : isPaddedDigits (Nat.toDigits 10 n) = false := by
  have hdigits {c : Char} (hc : c ∈ Nat.toDigits 10 n) := Json.Literal.isDigit_of_mem hc
  unfold isPaddedDigits
  split
  · rename_i hcs
    exact absurd (hdigits (hcs ▸ List.mem_cons_self)) (by decide)
  · rename_i hcs
    exact absurd (hdigits (hcs ▸ List.mem_cons_self)) (by decide)
  · rcases Nat.eq_zero_or_pos n with rfl | hn
    · rfl
    · have hhead := beq_eq_false_iff_ne.mpr (Json.Literal.head?_toDigits_ne hn)
      simp only [hhead, Bool.and_false, Bool.false_and]

theorem based?_toDigits (n : Nat) : based? (Nat.toDigits 10 n) = some n := by
  have hdigits {c : Char} (hc : c ∈ Nat.toDigits 10 n) := Json.Literal.isDigit_of_mem hc
  have hbase : baseOf (Nat.toDigits 10 n) = none := by
    unfold baseOf
    split
    · rename_i hcs
      exact absurd (hdigits (hcs ▸ List.mem_cons_of_mem _ List.mem_cons_self)) (by decide)
    · rename_i hcs
      exact absurd (hdigits (hcs ▸ List.mem_cons_of_mem _ List.mem_cons_self)) (by decide)
    · rename_i hcs
      exact absurd (hdigits (hcs ▸ List.mem_cons_of_mem _ List.mem_cons_self)) (by decide)
    · rfl
  rw [based?, hbase]
  exact (if_neg (Bool.eq_false_iff.mp (isPaddedDigits_toDigits n))).trans (natural?_toDigits n)

theorem integer?_integerText (n : Int) : integer? (Number.integerText n).toList = some n := by
  unfold Number.integerText
  split
  · rw [String.toList_append, Nat.toList_repr]
    change integer? ('-' :: Nat.toDigits 10 n.natAbs) = _
    rw [integer?, based?_toDigits]
    change some (-(n.natAbs : Int)) = some n
    congr 1
    omega
  · rw [Nat.toList_repr]
    have hdigits {c : Char} (hc : c ∈ Nat.toDigits 10 n.natAbs) := Json.Literal.isDigit_of_mem hc
    unfold integer?
    split
    · rename_i hcs
      exact absurd (hdigits (hcs ▸ List.mem_cons_self)) (by decide)
    · rename_i hcs
      exact absurd (hdigits (hcs ▸ List.mem_cons_self)) (by decide)
    · rw [based?_toDigits, Option.map_some]
      congr 1
      simp only [Int.ofNat_eq_natCast]
      omega

/-- Whether a text starts as no number does. -/
def StartsNoNumber (t : String) : Prop := ∀ c ∈ t.toList.head?, ¬ Json.StartsNumber c

instance (t : String) : Decidable (StartsNoNumber t) := Option.decidableForallMem _

theorem integerText_ne {t : String} (h : StartsNoNumber t) (n : Int) :
    Number.integerText n ≠ t := by
  rintro rfl
  obtain ⟨c, cs, hcs, hc⟩ := Json.head_integerText n
  rw [StartsNoNumber, hcs] at h
  exact h c rfl hc

/-- No integer is a spelling of nothing. -/
theorem isNullOrEmpty_integerText (n : Int) : isNullOrEmpty (Number.integerText n) = false := by
  have hword : ∀ t ∈ ["", "null", "Null", "NULL", "~"], Number.integerText n ≠ t := by
    intro t ht
    refine integerText_ne ?_ n
    revert t
    decide
  simp only [List.forall_mem_cons] at hword
  simp [isNullOrEmpty, isNull, hword]

theorem boolOf?_integerText (n : Int) : boolOf? (Number.integerText n) = none := by
  have hword : ∀ t ∈ ["true", "True", "TRUE", "false", "False", "FALSE"],
      Number.integerText n ≠ t := by
    intro t ht
    refine integerText_ne ?_ n
    revert t
    decide
  simp only [List.forall_mem_cons] at hword
  simp [boolOf?, hword]

/-- An integer of a word looks like itself. -/
theorem resolvePlain_integerText {n : Int} (hn : Number.IsWord n) :
    resolvePlain (Number.integerText n) = .number (.integer n) := by
  have hfound : integerFound? (Number.integerText n) = some (.number (.integer n)) := by
    rw [integerFound?, integer?_integerText]
    have hzero : ¬ (n = 0 ∧ (Number.integerText n).toList.head? = some '-') := by
      rintro ⟨rfl, hhead⟩
      exact absurd hhead (by decide)
    simp only [hzero, hn, if_false, if_true]
  rw [resolvePlain, isNullOrEmpty_integerText, boolOf?_integerText, hfound]
  rfl

end Dbml.Yaml
