import Dbml.Proofs.Yaml.Scanning

/-!
# The tokens of printed values

A printed value is cut into the tokens of its structure (`Value.tokens`), if its texts are
printable, its names short and its numbers integers of a word (`Portable`,
`Token.scan?_compact`).
-/

namespace Dbml.Json.Value

open Yaml (Token)

mutual

/-- The tokens of the text of a value, by the rules of YAML. -/
def tokens : Value → List Token
  | .null => [.scalar "null" .plain]
  | .bool b => [.scalar (if b then "true" else "false") .plain]
  | .number n => [.scalar n.text .plain]
  | .string s => [.scalar s .quoted]
  | .array items => .flowSequenceStart :: itemsTokens items
  | .object members => .flowMappingStart :: membersTokens members

def itemsTokens : List Value → List Token
  | [] => [.flowSequenceEnd]
  | item :: items => item.tokens ++ moreItemsTokens items

def moreItemsTokens : List Value → List Token
  | [] => [.flowSequenceEnd]
  | item :: items => .flowEntry :: (item.tokens ++ moreItemsTokens items)

def membersTokens : List (String × Value) → List Token
  | [] => [.flowMappingEnd]
  | (name, value) :: members =>
    .key :: .scalar name .quoted :: .value :: (value.tokens ++ moreMembersTokens members)

def moreMembersTokens : List (String × Value) → List Token
  | [] => [.flowMappingEnd]
  | (name, value) :: members =>
    .flowEntry :: .key :: .scalar name .quoted :: .value ::
      (value.tokens ++ moreMembersTokens members)

end

end Dbml.Json.Value

namespace Dbml.Yaml

open Json (Number Value stringChars)
open Text (IsPrintable IsPrintableChar)

/-- A name that may be a key: it is printable and short. -/
def IsShortName (name : String) : Prop :=
  IsPrintable name ∧ 4 * (stringChars name).length ≤ SimpleKey.maxLength

instance (name : String) : Decidable (IsShortName name) := inferInstanceAs (Decidable (_ ∧ _))

/-- Whether a value is read by the rules of YAML as by those of JSON: its numbers are integers of
a word, its texts are printable, and its names are short besides. -/
structure Portable (v : Value) : Prop where
  numbers : ∀ n ∈ v.numbers, n.IsWordInteger
  texts : ∀ t ∈ v.texts, IsPrintable t
  names : ∀ names ∈ v.keys, ∀ name ∈ names, IsShortName name

theorem portable_array {items : List Value} :
    Portable (.array items) ↔ ∀ v ∈ items, Portable v := by
  constructor
  · rintro ⟨hnumbers, htexts, hnames⟩ v hv
    rw [Value.numbers_array] at hnumbers
    rw [Value.texts_array] at htexts
    rw [Value.keys_array] at hnames
    exact ⟨fun n hn => hnumbers n (List.mem_flatMap.mpr ⟨v, hv, hn⟩),
      fun t ht => htexts t (List.mem_flatMap.mpr ⟨v, hv, ht⟩),
      fun names hn => hnames names (List.mem_flatMap.mpr ⟨v, hv, hn⟩)⟩
  · intro h
    refine ⟨?_, ?_, ?_⟩
    · rw [Value.numbers_array]
      exact List.forall_mem_flatMap.mpr fun v hv => (h v hv).numbers
    · rw [Value.texts_array]
      exact List.forall_mem_flatMap.mpr fun v hv => (h v hv).texts
    · rw [Value.keys_array]
      exact List.forall_mem_flatMap.mpr fun v hv => (h v hv).names

theorem portable_object {members : List (String × Value)} :
    Portable (.object members) ↔ ∀ m ∈ members, IsShortName m.1 ∧ Portable m.2 := by
  constructor
  · rintro ⟨hnumbers, htexts, hnames⟩ m hm
    rw [Value.numbers_object] at hnumbers
    rw [Value.texts_object] at htexts
    rw [Value.keys_object, List.forall_mem_cons] at hnames
    exact ⟨hnames.1 m.1 (List.mem_map_of_mem hm),
      fun n hn => hnumbers n (List.mem_flatMap.mpr ⟨m, hm, hn⟩),
      fun t ht => htexts t (List.mem_flatMap.mpr ⟨m, hm, ht⟩),
      fun names hn => hnames.2 names (List.mem_flatMap.mpr ⟨m, hm, hn⟩)⟩
  · intro h
    refine ⟨?_, ?_, ?_⟩
    · rw [Value.numbers_object]
      exact List.forall_mem_flatMap.mpr fun m hm => (h m hm).2.numbers
    · rw [Value.texts_object]
      exact List.forall_mem_flatMap.mpr fun m hm => (h m hm).2.texts
    · rw [Value.keys_object]
      exact List.forall_mem_cons.mpr ⟨List.forall_mem_map.mpr fun m hm => (h m hm).1,
        List.forall_mem_flatMap.mpr fun m hm => (h m hm).2.names⟩

namespace Scanner

variable {s : Scanner} {ch : Char} {cs rest : List Char} {before : List Token} {depth : Nat}

/-- Whether the text of a value is cut into its tokens wherever the scanner stands before it. -/
def Cuts (v : Value) : Prop :=
  ∀ ⦃s : Scanner⦄ ⦃rest : List Char⦄ ⦃before : List Token⦄ ⦃depth : Nat⦄,
    s.Stands (v.chars ++ rest) before depth → EndsWord (0 < depth) rest →
      Leads s v.chars.length (·.Stands rest (v.tokens.reverse ++ before) depth)

theorem endsWord_of_mem (hch : ch ∈ [',', ']', '\x7d']) (depth : Nat) (cs : List Char) :
    EndsWord (0 < depth + 1) (ch :: cs) :=
  .inr ⟨decide_eq_true (Nat.succ_pos depth), ch, cs, rfl, hch⟩

/-- Further items, up to the closing bracket. -/
theorem leads_moreItems {items : List Value} (hitems : ∀ v ∈ items, Cuts v)
    (h : s.Stands (Value.moreItemsChars items ++ rest) before (depth + 1)) :
    Leads s (Value.moreItemsChars items).length
      (·.Stands rest ((Value.moreItemsTokens items).reverse ++ before) depth) := by
  induction items generalizing s before with
  | nil => exact leads_flowEnd (.inl ⟨rfl, rfl⟩) h
  | cons item items ih =>
    obtain ⟨hitem, hitems⟩ := List.forall_mem_cons.mp hitems
    rw [Value.moreItemsChars, List.cons_append, List.append_assoc] at h
    have hend : EndsWord (0 < depth + 1) (Value.moreItemsChars items ++ rest) := by
      cases items <;> exact endsWord_of_mem (by decide) _ _
    refine ((leads_flowEntry h).bind fun s₁ hs₁ => (hitem hs₁.1 hend).bind fun s₂ hs₂ =>
      ih hitems hs₂).mono (m := (Value.moreItemsChars (item :: items)).length) ?_ |>.imp
        fun s₃ hs₃ => ?_
    · rw [Value.moreItemsChars, List.length_cons, List.length_append]
      omega
    · simpa [Value.moreItemsTokens] using hs₃

/-- A member, from its name on. -/
theorem leads_member {name : String} {v : Value} (hname : IsShortName name) (hv : Cuts v)
    (hend : EndsWord (0 < depth + 1) rest) (hallowed : s.keyAllowed = true)
    (h : s.Stands (stringChars name ++ ':' :: (v.chars ++ rest)) before (depth + 1)) :
    Leads s (v.chars.length + 2)
      (·.Stands rest (v.tokens.reverse ++ .value :: .scalar name .quoted :: .key :: before)
        (depth + 1)) := by
  rw [Nat.add_comm]
  exact (leads_name hname.1 hname.2 h hallowed).bind fun s₁ hs₁ => hv hs₁ hend

/-- Further members, up to the closing brace. -/
theorem leads_moreMembers {members : List (String × Value)}
    (hnames : ∀ m ∈ members, IsShortName m.1) (hmembers : ∀ m ∈ members, Cuts m.2)
    (h : s.Stands (Value.moreMembersChars members ++ rest) before (depth + 1)) :
    Leads s (Value.moreMembersChars members).length
      (·.Stands rest ((Value.moreMembersTokens members).reverse ++ before) depth) := by
  induction members generalizing s before with
  | nil => exact leads_flowEnd (.inr ⟨rfl, rfl⟩) h
  | cons m members ih =>
    obtain ⟨name, v⟩ := m
    obtain ⟨hname, hnames⟩ := List.forall_mem_cons.mp hnames
    obtain ⟨hv, hmembers⟩ := List.forall_mem_cons.mp hmembers
    rw [Value.moreMembersChars, List.cons_append, List.append_assoc, List.cons_append,
      List.append_assoc] at h
    have hend : EndsWord (0 < depth + 1) (Value.moreMembersChars members ++ rest) := by
      cases members <;> exact endsWord_of_mem (by decide) _ _
    refine ((leads_flowEntry h).bind fun s₁ hs₁ =>
      (leads_member hname hv hend hs₁.2 hs₁.1).bind fun s₂ hs₂ =>
        ih hnames hmembers hs₂).mono (m := (Value.moreMembersChars ((name, v) :: members)).length)
          ?_ |>.imp fun s₃ hs₃ => ?_
    · rw [Value.moreMembersChars, stringChars]
      simp only [List.length_cons, List.length_append]
      omega
    · simpa [Value.moreMembersTokens] using hs₃

theorem isWordChar_of_isDigit {c : Char} (h : c.isDigit = true) : IsWordChar c :=
  .inl (by rw [Char.isAlphanum, h, Bool.or_true])

theorem startsWord_integerText (n : Int) : StartsWord (Number.integerText n).toList := by
  have hdigits (n : Nat) : ∃ d digits, Nat.toDigits 10 n = d :: digits ∧ d.isDigit = true := by
    obtain ⟨d, digits, h⟩ := List.exists_cons_of_ne_nil (Nat.toDigits_ne_nil (b := 10) (n := n))
    exact ⟨d, digits, h, Json.Literal.isDigit_of_mem (h ▸ List.mem_cons_self)⟩
  obtain ⟨d, digits, h, hd⟩ := hdigits n.natAbs
  unfold Number.integerText
  split
  · rw [String.toList_append, Nat.toList_repr]
    exact ⟨'-', _, rfl, .inr ⟨rfl, d, digits, h, hd⟩⟩
  · rw [Nat.toList_repr]
    exact ⟨d, digits, h, .inl (by rw [Char.isAlphanum, hd, Bool.or_true])⟩

theorem isWord_integerText (n : Int) : IsWord (Number.integerText n) := by
  have hdigits (n : Nat) : IsWord (Nat.repr n) := by
    rw [IsWord, Nat.toList_repr]
    exact fun c hc => isWordChar_of_isDigit (Json.Literal.isDigit_of_mem hc)
  unfold Number.integerText
  split
  · rw [IsWord, String.toList_append]
    exact List.forall_mem_append.mpr ⟨(by decide : IsWord "-"), hdigits _⟩
  · exact hdigits _

theorem cuts_word {v : Value} {t : String} (hchars : v.chars = t.toList)
    (htokens : v.tokens = [.scalar t .plain]) (ht : IsWord t)
    (hstarts : StartsWord t.toList) : Cuts v := by
  intro s rest before depth h hend
  rw [hchars] at h ⊢
  rw [htokens]
  refine (leads_plain ht hstarts h hend).mono ?_
  obtain ⟨c, cs, hcs, -⟩ := hstarts
  rw [hcs]
  exact Nat.succ_le_succ (Nat.zero_le _)

theorem cuts_of_portable {v : Value} (h : Portable v) : Cuts v := by
  induction v using Value.induction with
  | null => exact cuts_word (t := "null") rfl rfl (by decide) ⟨'n', _, rfl, .inl rfl⟩
  | bool b =>
    cases b with
    | true => exact cuts_word (t := "true") rfl rfl (by decide) ⟨'t', _, rfl, .inl rfl⟩
    | false => exact cuts_word (t := "false") rfl rfl (by decide) ⟨'f', _, rfl, .inl rfl⟩
  | number n =>
    have hn := h.numbers n List.mem_cons_self
    cases n with
    | integer n =>
      exact cuts_word (t := Number.integerText n) rfl rfl (isWord_integerText n)
        (startsWord_integerText n)
    | float x => exact hn.elim
  | string t =>
    intro s rest before depth hs _
    refine ((leads_quoted (h.texts t List.mem_cons_self) hs).imp fun s' hs' => hs'.1).mono ?_
    exact Nat.succ_le_succ (Nat.zero_le _)
  | array items ih =>
    intro s rest before depth hs _
    have hitems : ∀ v ∈ items, Cuts v := fun v hv => ih v hv (portable_array.mp h v hv)
    cases items with
    | nil =>
      exact (leads_flowStart (.inl ⟨rfl, rfl⟩) hs).bind fun s₁ hs₁ =>
        leads_flowEnd (.inl ⟨rfl, rfl⟩) hs₁.1
    | cons item items =>
      obtain ⟨hitem, hitems⟩ := List.forall_mem_cons.mp hitems
      have hend : EndsWord (0 < depth + 1) (Value.moreItemsChars items ++ rest) := by
        cases items <;> exact endsWord_of_mem (by decide) _ _
      rw [Value.chars, Value.itemsChars, List.cons_append, List.append_assoc] at hs
      refine ((leads_flowStart (.inl ⟨rfl, rfl⟩) hs).bind fun s₁ hs₁ =>
        (hitem hs₁.1 hend).bind fun s₂ hs₂ => leads_moreItems hitems hs₂).mono
          (m := (Value.array (item :: items)).chars.length) ?_ |>.imp fun s₃ hs₃ => ?_
      · rw [Value.chars, Value.itemsChars, List.length_cons, List.length_append]
        omega
      · simpa [Value.tokens, Value.itemsTokens] using hs₃
  | object members ih =>
    intro s rest before depth hs _
    have hnames := fun m hm => (portable_object.mp h m hm).1
    have hmembers : ∀ m ∈ members, Cuts m.2 := fun m hm => ih m hm (portable_object.mp h m hm).2
    cases members with
    | nil =>
      exact (leads_flowStart (.inr ⟨rfl, rfl⟩) hs).bind fun s₁ hs₁ =>
        leads_flowEnd (.inr ⟨rfl, rfl⟩) hs₁.1
    | cons m members =>
      obtain ⟨name, v⟩ := m
      obtain ⟨hname, hnames⟩ := List.forall_mem_cons.mp hnames
      obtain ⟨hv, hmembers⟩ := List.forall_mem_cons.mp hmembers
      have hend : EndsWord (0 < depth + 1) (Value.moreMembersChars members ++ rest) := by
        cases members <;> exact endsWord_of_mem (by decide) _ _
      rw [Value.chars, Value.membersChars, List.cons_append, List.append_assoc, List.cons_append,
        List.append_assoc] at hs
      refine ((leads_flowStart (.inr ⟨rfl, rfl⟩) hs).bind fun s₁ hs₁ =>
        (leads_member hname hv hend hs₁.2 hs₁.1).bind fun s₂ hs₂ =>
          leads_moreMembers hnames hmembers hs₂).mono
            (m := (Value.object ((name, v) :: members)).chars.length) ?_ |>.imp fun s₃ hs₃ => ?_
      · rw [Value.chars, Value.membersChars, stringChars]
        simp only [List.length_cons, List.length_append]
        omega
      · simpa [Value.tokens, Value.membersTokens] using hs₃

/-- At the end of the text, with no bracket open, the tokens are complete. -/
theorem run_of_stands (h : s.Stands [] before 0) (fuel : Nat) :
    run (fuel + 1) s = some before.reverse := by
  have hnext {s : Scanner} (hs : s.Stands [] before 0) : s.cursor.next? = none := by
    rw [Cursor.next?, hs.rest]
    rfl
  have hgap : skipGap (fuel + 1) s = s := by
    refine skipGap_of_next? (fun c hc => ?_) fuel
    rw [hnext h] at hc
    cases hc
  obtain ⟨s₁, hdrop, -, -, hs₁, -⟩ := exists_dropStaleKeys h
  simp only [run, hgap, hdrop, bind, Option.bind_some, hs₁.unrollIndent, hnext hs₁]
  rw [finish, hs₁.unrollIndent, hs₁.removeKey.1]
  exact congrArg (some ·.reverse) hs₁.tokens

end Scanner

/-! ## Texts -/

theorem isPrintableChar_stringChars {t : String} (ht : IsPrintable t) :
    ∀ c ∈ stringChars t, IsPrintableChar c := by
  intro c hc
  rw [stringChars, List.mem_cons, List.mem_append, List.mem_singleton, List.mem_flatMap] at hc
  rcases hc with rfl | ⟨ch, hch, hc⟩ | rfl
  · decide
  · rcases escapeChar_of_printable (ht ch hch) with ⟨-, he⟩ | ⟨-, he⟩
    · rw [he] at hc
      rcases List.mem_cons.mp hc with rfl | hc
      · decide
      · exact List.mem_singleton.mp hc ▸ ht ch hch
    · rw [he] at hc
      exact List.mem_singleton.mp hc ▸ ht ch hch
  · decide

theorem isPrintableChar_moreItemsChars {items : List Value}
    (h : ∀ v ∈ items, ∀ c ∈ v.chars, IsPrintableChar c) :
    ∀ c ∈ Value.moreItemsChars items, IsPrintableChar c := by
  induction items with
  | nil => exact List.forall_mem_singleton.mpr (by decide)
  | cons item items ih =>
    obtain ⟨hitem, hitems⟩ := List.forall_mem_cons.mp h
    exact List.forall_mem_cons.mpr ⟨by decide, List.forall_mem_append.mpr ⟨hitem, ih hitems⟩⟩

theorem isPrintableChar_member {name : String} {cs : List Char} (hname : IsPrintable name)
    (h : ∀ c ∈ cs, IsPrintableChar c) : ∀ c ∈ stringChars name ++ ':' :: cs, IsPrintableChar c :=
  List.forall_mem_append.mpr ⟨isPrintableChar_stringChars hname,
    List.forall_mem_cons.mpr ⟨by decide, h⟩⟩

theorem isPrintableChar_moreMembersChars {members : List (String × Value)}
    (h : ∀ m ∈ members, IsPrintable m.1 ∧ ∀ c ∈ m.2.chars, IsPrintableChar c) :
    ∀ c ∈ Value.moreMembersChars members, IsPrintableChar c := by
  induction members with
  | nil => exact List.forall_mem_singleton.mpr (by decide)
  | cons m members ih =>
    obtain ⟨⟨hname, hm⟩, hmembers⟩ := List.forall_mem_cons.mp h
    have hrest := List.forall_mem_append.mpr ⟨hm, ih hmembers⟩
    exact List.forall_mem_cons.mpr ⟨by decide, isPrintableChar_member hname hrest⟩

theorem isPrintableChar_chars {v : Value} (h : Portable v) :
    ∀ c ∈ v.chars, IsPrintableChar c := by
  induction v using Value.induction with
  | null => exact (by decide : IsPrintable "null")
  | bool b =>
    cases b with
    | true => exact (by decide : IsPrintable "true")
    | false => exact (by decide : IsPrintable "false")
  | number n =>
    have hn := h.numbers n List.mem_cons_self
    cases n with
    | integer n => exact fun c hc => (Scanner.isWord_integerText n c hc).printable
    | float x => exact hn.elim
  | string t => exact isPrintableChar_stringChars (h.texts t List.mem_cons_self)
  | array items ih =>
    have hitems := fun v hv => ih v hv (portable_array.mp h v hv)
    refine List.forall_mem_cons.mpr ⟨by decide, ?_⟩
    cases items with
    | nil => exact List.forall_mem_singleton.mpr (by decide)
    | cons item items =>
      obtain ⟨hitem, hitems⟩ := List.forall_mem_cons.mp hitems
      exact List.forall_mem_append.mpr ⟨hitem, isPrintableChar_moreItemsChars hitems⟩
  | object members ih =>
    have hmembers := fun m hm =>
      And.intro (portable_object.mp h m hm).1.1 (ih m hm (portable_object.mp h m hm).2)
    refine List.forall_mem_cons.mpr ⟨by decide, ?_⟩
    cases members with
    | nil => exact List.forall_mem_singleton.mpr (by decide)
    | cons m members =>
      obtain ⟨⟨hname, hm⟩, hmembers⟩ := List.forall_mem_cons.mp hmembers
      have hrest := List.forall_mem_append.mpr ⟨hm, isPrintableChar_moreMembersChars hmembers⟩
      exact isPrintableChar_member hname hrest

/-- The compact text of a value is cut into its tokens. -/
theorem Token.scan?_compact {v : Value} (h : Portable v) :
    Token.scan? v.compact.toList = some v.tokens := by
  rw [Value.compact, String.toList_ofList]
  have hallowed : v.chars.all isAllowed = true :=
    List.all_eq_true.mpr fun c hc => isAllowed_of_printable (isPrintableChar_chars h c hc)
  have hstart : Scanner.Stands { cursor := { rest := v.chars } } (v.chars ++ []) [] 0 := by
    refine ⟨(List.append_nil _).symm, rfl, rfl, rfl, rfl, ?_, ?_⟩
    · intro key hkey
      cases hkey
    · intro key hkey
      cases hkey
  obtain ⟨s, k, hk, hs, hrun⟩ := Scanner.cuts_of_portable h hstart (.inl rfl)
  obtain ⟨fuel, hfuel⟩ := Nat.exists_eq_add_of_le hk
  rw [Token.scan?, if_pos hallowed, show v.chars.length + 1 = fuel + 1 + k by omega, hrun,
    Scanner.run_of_stands hs, List.append_nil, List.reverse_reverse]

end Dbml.Yaml
