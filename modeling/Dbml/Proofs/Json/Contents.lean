import Dbml.Proofs.Json.Printed
import Dbml.Proofs.Json.Value

/-!
# What a printed value shows of its strings

JSON text is made of few characters besides those of its strings, and escapes few. Any other
character (`IsForeign`), a backtick for one, is in the compact text of a value iff it is in a text
of the value or in the name of a member (`Value.mem_chars_iff`).
-/

namespace Dbml.Json

/-- A character that JSON text has no use for: it is neither escaped nor a part of an escape, of a
number or of a word, and it stands between no items or members. -/
def IsForeign (c : Char) : Prop :=
  0x20 ≤ c.toNat ∧ c.isAlphanum = false ∧
    c ∉ ['"', '\\', '[', ']', '{', '}', ',', ':', '.', '-', '+']

instance : DecidablePred IsForeign := fun _ => inferInstanceAs (Decidable (_ ∧ _ ∧ _))

/-- Only characters that JSON text has a use for. -/
def IsNative (cs : List Char) : Prop := ∀ c ∈ cs, ¬ IsForeign c

-- by a walk over the text, and not over all characters
instance (cs : List Char) : Decidable (IsNative cs) := List.decidableBAll _ _

variable {c : Char}

theorem IsForeign.ne {d : Char} (hc : IsForeign c) (hd : ¬ IsForeign d) : c ≠ d :=
  fun h => hd (h ▸ hc)

theorem IsForeign.not_mem {cs : List Char} (hc : IsForeign c) (h : IsNative cs) : c ∉ cs :=
  fun hmem => h c hmem hc

theorem IsForeign.not_isNumberChar (hc : IsForeign c) : ¬ IsNumberChar c := by
  rintro (hdigit | hmem)
  · have halnum := hc.2.1
    simp [Char.isAlphanum, hdigit] at halnum
  · exact hc.not_mem (by decide) hmem

/-! ## Strings -/

/-- Besides the controls only the quote and the backslash are escaped. -/
theorem escapeChar_of_ne (hcontrol : ¬ c.toNat < 0x20) (hquote : c ≠ '"') (hslash : c ≠ '\\') :
    escapeChar c = [c] := by
  have hne {d : Char} (hd : d.toNat < 0x20) : c ≠ d := fun h => hcontrol (h ▸ hd)
  have hback : c.toNat ≠ 0x08 := by omega
  have hfeed : c.toNat ≠ 0x0C := by omega
  rw [escapeChar, if_neg hquote, if_neg hslash, if_neg (hne (by decide)), if_neg (hne (by decide)),
    if_neg (hne (by decide)), if_neg hback, if_neg hfeed, if_neg hcontrol]

theorem mem_escapeChar_iff (hc : IsForeign c) {d : Char} : c ∈ escapeChar d ↔ c = d := by
  constructor
  · intro h
    by_cases hcontrol : d.toNat < 0x20
    · -- no escape of a control has a foreign character
      have hescape : ∀ n < 0x20, IsNative (escapeChar (Char.ofNat n)) := by decide
      have hnative := hescape d.toNat hcontrol
      rw [Char.ofNat_toNat] at hnative
      exact absurd h (hc.not_mem hnative)
    by_cases hquote : d = '"'
    · subst hquote
      exact absurd h (hc.not_mem (by decide))
    by_cases hslash : d = '\\'
    · subst hslash
      exact absurd h (hc.not_mem (by decide))
    rw [escapeChar_of_ne hcontrol hquote hslash] at h
    exact List.mem_singleton.mp h
  · rintro rfl
    rw [escapeChar_of_ne (Nat.not_lt.mpr hc.1) (hc.ne (by decide)) (hc.ne (by decide))]
    exact List.mem_singleton_self c

theorem mem_stringChars_iff (hc : IsForeign c) {s : String} :
    c ∈ stringChars s ↔ c ∈ s.toList := by
  have hquote : c ≠ '"' := hc.ne (by decide)
  simp [stringChars, hquote, mem_escapeChar_iff hc]

/-! ## Values -/

namespace Value

variable {items : List Value} {members : List (String × Value)}

/-- The texts in a value and the names of the members in it. -/
def strings (v : Value) : List String := v.texts ++ v.keys.flatten

theorem mem_strings_iff {v : Value} {s : String} :
    s ∈ v.strings ↔ s ∈ v.texts ∨ ∃ names ∈ v.keys, s ∈ names := by
  rw [strings, List.mem_append, List.mem_flatten]

theorem mem_strings_array {s : String} :
    s ∈ (array items).strings ↔ ∃ v ∈ items, s ∈ v.strings := by
  simp only [mem_strings_iff, texts_array, keys_array, List.mem_flatMap]
  constructor
  · rintro (⟨v, hv, h⟩ | ⟨names, ⟨v, hv, hnames⟩, h⟩)
    · exact ⟨v, hv, .inl h⟩
    · exact ⟨v, hv, .inr ⟨names, hnames, h⟩⟩
  · rintro ⟨v, hv, h | ⟨names, hnames, h⟩⟩
    · exact .inl ⟨v, hv, h⟩
    · exact .inr ⟨names, ⟨v, hv, hnames⟩, h⟩

theorem mem_strings_object {s : String} :
    s ∈ (object members).strings ↔ ∃ m ∈ members, s = m.1 ∨ s ∈ m.2.strings := by
  simp only [mem_strings_iff, texts_object, keys_object, List.mem_flatMap, List.mem_cons]
  constructor
  · rintro (⟨m, hm, h⟩ | ⟨names, rfl | ⟨m, hm, hnames⟩, h⟩)
    · exact ⟨m, hm, .inr (.inl h)⟩
    · obtain ⟨m, hm, rfl⟩ := List.mem_map.mp h
      exact ⟨m, hm, .inl rfl⟩
    · exact ⟨m, hm, .inr (.inr ⟨names, hnames, h⟩)⟩
  · rintro ⟨m, hm, rfl | h | ⟨names, hnames, h⟩⟩
    · exact .inr ⟨_, .inl rfl, List.mem_map_of_mem hm⟩
    · exact .inl ⟨m, hm, h⟩
    · exact .inr ⟨names, .inr ⟨m, hm, hnames⟩, h⟩

theorem mem_itemsChars_iff (hc : IsForeign c) :
    c ∈ itemsChars items ↔ ∃ v ∈ items, c ∈ v.chars := by
  have hclose : c ≠ ']' := hc.ne (by decide)
  have hcomma : c ≠ ',' := hc.ne (by decide)
  have hmore : c ∈ moreItemsChars items ↔ ∃ v ∈ items, c ∈ v.chars := by
    induction items with
    | nil => simp [moreItemsChars, hclose]
    | cons item items ih => simp [moreItemsChars, hcomma, ih]
  cases items with
  | nil => exact hmore
  | cons item items => simpa [itemsChars, moreItemsChars, hcomma] using hmore

theorem mem_membersChars_iff (hc : IsForeign c) :
    c ∈ membersChars members ↔ ∃ m ∈ members, c ∈ m.1.toList ∨ c ∈ m.2.chars := by
  have hclose : c ≠ '}' := hc.ne (by decide)
  have hcomma : c ≠ ',' := hc.ne (by decide)
  have hcolon : c ≠ ':' := hc.ne (by decide)
  have hmore : c ∈ moreMembersChars members ↔ ∃ m ∈ members, c ∈ m.1.toList ∨ c ∈ m.2.chars := by
    induction members with
    | nil => simp [moreMembersChars, hclose]
    | cons m members ih =>
      simp [moreMembersChars, hcomma, hcolon, mem_stringChars_iff hc, ih, or_assoc]
  cases members with
  | nil => exact hmore
  | cons m members => simpa [membersChars, moreMembersChars, hcomma] using hmore

/-- A foreign character is in the text of a value iff it is in one of its strings. -/
theorem mem_chars_iff (hc : IsForeign c) (v : Value) :
    c ∈ v.chars ↔ ∃ s ∈ v.strings, c ∈ s.toList := by
  induction v using Value.induction with
  | null => exact iff_of_false (hc.not_mem (by decide)) nofun
  | bool b => cases b <;> exact iff_of_false (hc.not_mem (by decide)) nofun
  | number n =>
    exact iff_of_false (fun h => hc.not_isNumberChar (n.isNumberText c h)) nofun
  | string s => simp [chars, strings, texts, keys, mem_stringChars_iff hc]
  | array items ih =>
    have hbracket : c ≠ '[' := hc.ne (by decide)
    simp only [chars, List.mem_cons, hbracket, false_or, mem_itemsChars_iff hc, mem_strings_array]
    constructor
    · rintro ⟨v, hv, hmem⟩
      obtain ⟨s, hs, hmem⟩ := (ih v hv).mp hmem
      exact ⟨s, ⟨v, hv, hs⟩, hmem⟩
    · rintro ⟨s, ⟨v, hv, hs⟩, hmem⟩
      exact ⟨v, hv, (ih v hv).mpr ⟨s, hs, hmem⟩⟩
  | object members ih =>
    have hbrace : c ≠ '{' := hc.ne (by decide)
    simp only [chars, List.mem_cons, hbrace, false_or, mem_membersChars_iff hc, mem_strings_object]
    constructor
    · rintro ⟨m, hm, hname | hmem⟩
      · exact ⟨m.1, ⟨m, hm, .inl rfl⟩, hname⟩
      · obtain ⟨s, hs, hmem⟩ := (ih m hm).mp hmem
        exact ⟨s, ⟨m, hm, .inr hs⟩, hmem⟩
    · rintro ⟨s, ⟨m, hm, rfl | hs⟩, hmem⟩
      · exact ⟨m, hm, .inl hmem⟩
      · exact ⟨m, hm, .inr ((ih m hm).mpr ⟨s, hs, hmem⟩)⟩

end Value

end Dbml.Json
