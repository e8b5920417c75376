import Dbml.Json.Printer
import Dbml.Proofs.Text.Words
import Mathlib.Data.Nat.Digits.Defs

/-!
# What printed values are made of

The text of a number, in whichever notation, consists of a few characters
(`Number.isNumberText`). The compact form of a value is on one line: strings
escape their line feeds (`Value.oneLine_compact`).
-/

namespace Dbml

/-- A digit, a point, a sign or the mark of an exponent. -/
def IsNumberChar (c : Char) : Prop := c.isDigit = true ∨ c ∈ ['.', '-', 'e', '+']

instance : DecidablePred IsNumberChar := fun _ => inferInstanceAs (Decidable (_ ∨ _))

theorem IsNumberChar.ne {c c' : Char} (h : IsNumberChar c) (h' : ¬ IsNumberChar c') : c ≠ c' :=
  fun hc => h' (hc ▸ h)

/-- Only such characters. -/
def IsNumberText (cs : List Char) : Prop := ∀ c ∈ cs, IsNumberChar c

instance (cs : List Char) : Decidable (IsNumberText cs) := List.decidableBAll _ _

theorem isNumberText_append {cs ds : List Char} :
    IsNumberText (cs ++ ds) ↔ IsNumberText cs ∧ IsNumberText ds := List.forall_mem_append

theorem isNumberText_cons {c : Char} {cs : List Char} :
    IsNumberText (c :: cs) ↔ IsNumberChar c ∧ IsNumberText cs := List.forall_mem_cons

theorem isNumberText_repr (n : Nat) : IsNumberText (Nat.repr n).toList := by
  intro c hc
  rw [Nat.toList_repr] at hc
  exact .inl (Nat.isDigit_of_mem_toDigits (by decide) (by decide) hc)

theorem isNumberText_zeros (n : Nat) : IsNumberText (List.replicate n '0') := by
  intro c hc
  rw [(List.mem_replicate.mp hc).2]
  decide

theorem Decimal.isNumberText_positional (d : Decimal) : IsNumberText d.positional.toList := by
  have hdigits := isNumberText_repr d.digits
  rw [positional, String.toList_ofList]
  split
  · have hzeros := isNumberText_append.mpr ⟨hdigits, isNumberText_zeros d.exponent.toNat⟩
    exact isNumberText_append.mpr ⟨hzeros, by decide⟩
  · split
    · refine isNumberText_append.mpr ⟨fun c hc => hdigits c (List.mem_of_mem_take hc), ?_⟩
      exact isNumberText_cons.mpr ⟨by decide, fun c hc => hdigits c (List.mem_of_mem_drop hc)⟩
    · refine isNumberText_cons.mpr ⟨by decide, isNumberText_cons.mpr ⟨by decide, ?_⟩⟩
      exact isNumberText_append.mpr ⟨isNumberText_zeros _, hdigits⟩

theorem Decimal.isNumberText_scientific (d : Decimal) : IsNumberText d.scientific.toList := by
  have hdigits := isNumberText_repr d.digits
  simp only [scientific, String.toList_append, String.toList_ofList]
  refine isNumberText_append.mpr ⟨isNumberText_append.mpr ⟨?_, ?_⟩, isNumberText_repr _⟩
  · generalize (Nat.repr d.digits).toList = digits at hdigits
    split
    · exact hdigits
    · exact hdigits
    · obtain ⟨hfirst, hrest⟩ := isNumberText_cons.mp hdigits
      exact isNumberText_cons.mpr ⟨hfirst, isNumberText_cons.mpr ⟨by decide, hrest⟩⟩
  · split <;> decide

theorem isNumberText_minus {b : Bool} {s : String} (hs : IsNumberText s.toList) :
    IsNumberText (if b then "-" ++ s else s).toList := by
  split
  · rw [String.toList_append]
    exact isNumberText_append.mpr ⟨by decide, hs⟩
  · exact hs

namespace Json

theorem Number.isNumberText (n : Number) : IsNumberText n.text.toList := by
  cases n with
  | integer n =>
    have hminus := isNumberText_minus (b := n < 0) (isNumberText_repr n.natAbs)
    simpa [text, integerText] using hminus
  | float x =>
    refine isNumberText_minus ?_
    split
    · exact Decimal.isNumberText_positional _
    · exact Decimal.isNumberText_scientific _

theorem hexDigit_ne {n : Nat} (h : n < 16) : hexDigit n ≠ '\n' := by
  revert n
  decide

/-- A line feed is escaped, and nothing that is escaped becomes one. -/
theorem newline_not_mem_escapeChar (c : Char) : '\n' ∉ escapeChar c := by
  by_cases hc : c = '\n'
  · subst hc
    decide
  · by_cases hcontrol : c.toNat < 0x20
    · have hhigh : '\n' ≠ hexDigit (c.toNat / 16) := (hexDigit_ne (by omega)).symm
      have hlow : '\n' ≠ hexDigit (c.toNat % 16) := (hexDigit_ne (by omega)).symm
      simp only [escapeChar, hcontrol, if_true]
      repeat' split
      all_goals simp [hhigh, hlow]
    · simp only [escapeChar, hcontrol, if_false]
      repeat' split
      all_goals simp [Ne.symm hc]

theorem newline_not_mem_stringChars (s : String) : '\n' ∉ stringChars s := by
  simp [stringChars, newline_not_mem_escapeChar]

namespace Value

mutual

theorem newline_not_mem_chars : ∀ v : Value, '\n' ∉ v.chars
  | .null => by decide
  | .bool true => by decide
  | .bool false => by decide
  | .number n => fun h => (n.isNumberText _ h).ne (by decide) rfl
  | .string s => newline_not_mem_stringChars s
  | .array items => by simp [chars, newline_not_mem_itemsChars items]
  | .object members => by simp [chars, newline_not_mem_membersChars members]

theorem newline_not_mem_itemsChars : ∀ items : List Value, '\n' ∉ itemsChars items
  | [] => by decide
  | item :: items => by
    simp [itemsChars, newline_not_mem_chars item, newline_not_mem_moreItemsChars items]

theorem newline_not_mem_moreItemsChars : ∀ items : List Value, '\n' ∉ moreItemsChars items
  | [] => by decide
  | item :: items => by
    simp [moreItemsChars, newline_not_mem_chars item, newline_not_mem_moreItemsChars items]

theorem newline_not_mem_membersChars :
    ∀ members : List (String × Value), '\n' ∉ membersChars members
  | [] => by decide
  | (name, value) :: members => by
    simp [membersChars, newline_not_mem_stringChars name, newline_not_mem_chars value,
      newline_not_mem_moreMembersChars members]

theorem newline_not_mem_moreMembersChars :
    ∀ members : List (String × Value), '\n' ∉ moreMembersChars members
  | [] => by decide
  | (name, value) :: members => by
    simp [moreMembersChars, newline_not_mem_stringChars name, newline_not_mem_chars value,
      newline_not_mem_moreMembersChars members]

end

theorem toList_compact (v : Value) : v.compact.toList = v.chars := String.toList_ofList

theorem oneLine_compact (v : Value) : Text.OneLine v.compact := by
  rw [Text.OneLine, toList_compact]
  exact newline_not_mem_chars v

end Value

end Json

end Dbml
