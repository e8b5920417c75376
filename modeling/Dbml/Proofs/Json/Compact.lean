import Dbml.Proofs.Json.Printed
import Dbml.Proofs.Json.Scanned
import Dbml.Proofs.Text.Splitting

/-!
# Compact texts of values

The compact text of a value tells where it ends, except that a number may go on, and so do
several of them with a comma and a blank between them (`intercalate_compact_inj`). They also
tell where they start after an opening parenthesis: none stands outside of strings, and of two
readers, one of which takes the strings of the other for what is between them, only one is
outside of strings at the end (`Region.after_ne`, `Region.parenthesis_inj`).
-/

namespace Dbml.Json

open Text (separated Stops)

/-! ## Where a value ends -/

/-- Values whose numbers are integers of a word. -/
def WordIntegers (vs : List Value) : Prop := ∀ v ∈ vs, ∀ n ∈ v.numbers, n.IsWordInteger

namespace Value

variable {v w : Value} {vs ws : List Value}

theorem chars_ne_nil (h : ∀ n ∈ v.numbers, n.IsWordInteger) : v.chars ≠ [] := by
  obtain ⟨c, cs, hcs, -⟩ := (Layout.compact.scanned_of_numbers h).starts 0
  rw [Layout.compact_chars] at hcs
  rw [hcs]
  exact List.cons_ne_nil c cs

/-- Both texts are scanned as one tree, and that tells the value and what is left. -/
theorem chars_append_inj (hv : ∀ n ∈ v.numbers, n.IsWordInteger)
    (hw : ∀ n ∈ w.numbers, n.IsWordInteger) {r s : List Char} (hr : Stops ContinuesNumber r)
    (hs : Stops ContinuesNumber s) (h : v.chars ++ r = w.chars ++ s) : v = w ∧ r = s := by
  have hscan {v : Value} {r : List Char} (hv : ∀ n ∈ v.numbers, n.IsWordInteger)
      (hr : Stops ContinuesNumber r) (fuel : Nat) (hf : 2 * v.chars.length ≤ fuel) :
      ∃ t, Tree.scanValue fuel (v.chars ++ r) = (t, r) ∧ t.value? = some v := by
    have hscanned := (Layout.compact.scanned_of_numbers hv).scan 0 fuel r
    rw [Layout.compact_chars] at hscanned
    exact hscanned hf hr
  let fuel := 2 * (v.chars.length + w.chars.length)
  obtain ⟨t, ht, hvalue⟩ := hscan hv hr fuel (by omega)
  obtain ⟨t', ht', hvalue'⟩ := hscan hw hs fuel (by omega)
  rw [h, ht'] at ht
  obtain ⟨rfl, rfl⟩ := Prod.mk.inj ht
  exact ⟨Option.some.inj (hvalue.symm.trans hvalue'), rfl⟩

theorem compact_inj (hv : ∀ n ∈ v.numbers, n.IsWordInteger) (hw : ∀ n ∈ w.numbers, n.IsWordInteger)
    (h : v.compact = w.compact) : v = w := by
  refine (chars_append_inj hv hw Text.stops_nil Text.stops_nil ?_).1
  rw [← toList_compact, ← toList_compact, h]

theorem stops_separated (xs : List String) : Stops ContinuesNumber (separated [',', ' '] xs) := by
  cases xs with
  | nil => exact Text.stops_nil
  | cons x xs => exact Text.stops_cons.mpr (by decide)

theorem separated_compact_inj (hv : WordIntegers vs) (hw : WordIntegers ws)
    (h : separated [',', ' '] (vs.map (·.compact)) = separated [',', ' '] (ws.map (·.compact))) :
    vs = ws := by
  induction vs generalizing ws with
  | nil =>
    cases ws with
    | nil => rfl
    | cons w ws => cases h
  | cons v vs ih =>
    cases ws with
    | nil => cases h
    | cons w ws =>
      obtain ⟨hv, hvs⟩ := List.forall_mem_cons.mp hv
      obtain ⟨hw, hws⟩ := List.forall_mem_cons.mp hw
      simp only [List.map_cons, Text.separated_cons, List.append_assoc, toList_compact,
        List.append_cancel_left_eq] at h
      obtain ⟨rfl, hrest⟩ := chars_append_inj hv hw (stops_separated _) (stops_separated _) h
      rw [ih hvs hws hrest]

theorem toList_intercalate_compact (v : Value) (vs : List Value) :
    (", ".intercalate ((v :: vs).map (·.compact))).toList =
      v.chars ++ separated [',', ' '] (vs.map (·.compact)) := by
  rw [List.map_cons, Text.toList_intercalate_cons, toList_compact]
  rfl

/-- The list of values is told by the text of all of them. -/
theorem intercalate_compact_inj (hv : WordIntegers vs) (hw : WordIntegers ws)
    (h : ", ".intercalate (vs.map (·.compact)) = ", ".intercalate (ws.map (·.compact))) :
    vs = ws := by
  have hempty {v : Value} {vs : List Value} (hv : WordIntegers (v :: vs)) :
      ", ".intercalate ((v :: vs).map (·.compact)) ≠ "" := by
    intro h
    have hchars := congrArg String.toList h
    rw [toList_intercalate_compact] at hchars
    exact chars_ne_nil (hv v List.mem_cons_self) (List.append_eq_nil_iff.mp hchars).1
  cases vs with
  | nil =>
    cases ws with
    | nil => rfl
    | cons w ws => exact absurd h.symm (hempty hw)
  | cons v vs =>
    cases ws with
    | nil => exact absurd h (hempty hv)
    | cons w ws =>
      replace h := congrArg String.toList h
      rw [toList_intercalate_compact, toList_intercalate_compact] at h
      obtain ⟨hv, hvs⟩ := List.forall_mem_cons.mp hv
      obtain ⟨hw, hws⟩ := List.forall_mem_cons.mp hw
      obtain ⟨rfl, hrest⟩ := chars_append_inj hv hw (stops_separated _) (stops_separated _) h
      rw [separated_compact_inj hvs hws hrest]

end Value

/-! ## Strings and what is between them -/

/-- Where a reader is that looks for strings only: between them, in one, or after a backslash in
one. -/
inductive Region
  | outside
  | inside
  | escaped
  deriving DecidableEq

namespace Region

/-- Reads one character. Between strings there is no backslash and no opening parenthesis. -/
def next : Region → Char → Option Region
  | .outside, c =>
    if c = '"' then some .inside else if c = '\\' ∨ c = '(' then none else some .outside
  | .inside, c => some (if c = '"' then .outside else if c = '\\' then .escaped else .inside)
  | .escaped, _ => some .inside

/-- Reads a text. -/
def after (r : Region) (cs : List Char) : Option Region := cs.foldlM next r

variable {c : Char} {cs ds : List Char}

@[simp] theorem after_nil (r : Region) : r.after [] = some r := rfl

@[simp] theorem after_cons (r : Region) (c : Char) (cs : List Char) :
    r.after (c :: cs) = (r.next c).bind (·.after cs) := List.foldlM_cons

theorem after_append (r : Region) (cs ds : List Char) :
    r.after (cs ++ ds) = (r.after cs).bind (·.after ds) := List.foldlM_append

/-- A reader between strings and one in a string stay so, the other way round after each quote. -/
theorem after_ne {a b : Region} (ha : outside.after cs = some a) (hb : inside.after cs = some b) :
    a ≠ b := by
  induction cs generalizing a b with
  | nil =>
    obtain rfl := Option.some.inj ha
    obtain rfl := Option.some.inj hb
    decide
  | cons c cs ih =>
    simp only [after_cons, next] at ha hb
    by_cases hquote : c = '"'
    · simp only [hquote, if_true, Option.bind_some] at ha hb
      exact (ih hb ha).symm
    · by_cases hstop : c = '\\' ∨ c = '('
      · simp [hquote, hstop] at ha
      · obtain ⟨hbackslash, hparen⟩ := not_or.mp hstop
        simp only [hquote, hbackslash, hparen, or_self, if_false, Option.bind_some] at ha hb
        exact ih ha hb

/-- A text from which no string is left open, and outside of whose strings there is no opening
parenthesis. -/
def Closed (cs : List Char) : Prop := outside.after cs = some outside

theorem Closed.append (hc : Closed cs) (hd : Closed ds) : Closed (cs ++ ds) := by
  rw [Closed, after_append, hc]
  exact hd

theorem Closed.cons (hc : outside.next c = some outside) (hd : Closed ds) : Closed (c :: ds) := by
  rw [Closed, after_cons, hc]
  exact hd

/-- After an opening parenthesis in it, such a text is in a string, and does not go on as one. -/
theorem Closed.not_parenthesis (hd : Closed ds) : ¬ Closed (cs ++ '(' :: ds) := by
  intro h
  rw [Closed, after_append, Option.bind_eq_some_iff] at h
  obtain ⟨r, -, h⟩ := h
  cases r with
  | outside => cases h
  | inside | escaped => exact after_ne hd h rfl

/-- Only one of the opening parentheses of a text stands before such a text. -/
theorem parenthesis_inj {as bs : List Char} (hc : Closed cs) (hd : Closed ds)
    (h : as ++ '(' :: cs = bs ++ '(' :: ds) : as = bs ∧ cs = ds := by
  have hfirst {cs ds es : List Char} (hc : Closed cs) (hd : Closed ds)
      (h : '(' :: cs = es ++ '(' :: ds) : es = [] ∧ cs = ds := by
    cases es with
    | nil => exact ⟨rfl, (List.cons.inj h).2⟩
    | cons e es =>
      obtain ⟨rfl, rfl⟩ := List.cons.inj h
      exact absurd hc hd.not_parenthesis
  rcases List.append_eq_append_iff.mp h with ⟨es, rfl, hcs⟩ | ⟨es, rfl, hds⟩
  · obtain ⟨rfl, rfl⟩ := hfirst hc hd hcs
    exact ⟨(List.append_nil as).symm, rfl⟩
  · obtain ⟨rfl, rfl⟩ := hfirst hd hc hds
    exact ⟨List.append_nil bs, rfl⟩

/-! ## The regions of a value -/

/-- Every escape sequence is read to its end. -/
theorem after_escapeChar (c : Char) : inside.after (escapeChar c) = some inside := by
  have hdigit : ∀ n < 16, hexDigit n ≠ '"' ∧ hexDigit n ≠ '\\' := by decide
  by_cases hcontrol : c.toNat < 0x20
  · have hhigh := hdigit (c.toNat / 16) (by omega)
    have hlow := hdigit (c.toNat % 16) (by omega)
    simp only [escapeChar, hcontrol, if_true]
    repeat' split
    all_goals first | rfl | simp [next, hhigh, hlow]
  · simp only [escapeChar, hcontrol, if_false]
    repeat' split
    all_goals first | rfl | simp [next, *]

theorem after_flatMap_escapeChar (cs : List Char) :
    inside.after (cs.flatMap escapeChar) = some inside := by
  induction cs with
  | nil => rfl
  | cons c cs ih => rw [List.flatMap_cons, after_append, after_escapeChar, Option.bind_some, ih]

theorem closed_stringChars (s : String) : Closed (stringChars s) := by
  rw [Closed, stringChars, after_cons, next, if_pos rfl, Option.bind_some, after_append,
    after_flatMap_escapeChar]
  rfl

theorem next_isNumberChar (h : IsNumberChar c) : outside.next c = some outside := by
  have hquote : c ≠ '"' := h.ne (by decide)
  have hbackslash : c ≠ '\\' := h.ne (by decide)
  have hparen : c ≠ '(' := h.ne (by decide)
  simp [next, hquote, hbackslash, hparen]

theorem closed_isNumberText (h : IsNumberText cs) : Closed cs := by
  induction cs with
  | nil => rfl
  | cons c cs ih =>
    obtain ⟨hc, hcs⟩ := isNumberText_cons.mp h
    exact .cons (next_isNumberChar hc) (ih hcs)

end Region

namespace Value

open Region (Closed)

mutual

theorem closed_chars : ∀ v : Value, Closed v.chars
  | .null => rfl
  | .bool true => rfl
  | .bool false => rfl
  | .number n => Region.closed_isNumberText n.isNumberText
  | .string s => Region.closed_stringChars s
  | .array items => .cons rfl (closed_itemsChars items)
  | .object members => .cons rfl (closed_membersChars members)

theorem closed_itemsChars : ∀ items : List Value, Closed (itemsChars items)
  | [] => rfl
  | item :: items => (closed_chars item).append (closed_moreItemsChars items)

theorem closed_moreItemsChars : ∀ items : List Value, Closed (moreItemsChars items)
  | [] => rfl
  | item :: items => .cons rfl ((closed_chars item).append (closed_moreItemsChars items))

theorem closed_membersChars : ∀ members : List (String × Value), Closed (membersChars members)
  | [] => rfl
  | (name, value) :: members =>
    (Region.closed_stringChars name).append
      (.cons rfl ((closed_chars value).append (closed_moreMembersChars members)))

theorem closed_moreMembersChars :
    ∀ members : List (String × Value), Closed (moreMembersChars members)
  | [] => rfl
  | (name, value) :: members =>
    .cons rfl ((Region.closed_stringChars name).append
      (.cons rfl ((closed_chars value).append (closed_moreMembersChars members))))

end

theorem closed_intercalate_compact (vs : List Value) :
    Closed (", ".intercalate (vs.map (·.compact))).toList := by
  cases vs with
  | nil => rfl
  | cons v vs =>
    rw [toList_intercalate_compact]
    refine (closed_chars v).append ?_
    induction vs with
    | nil => rfl
    | cons w ws ih =>
      rw [List.map_cons, Text.separated_cons, toList_compact, List.append_assoc]
      exact .cons rfl (.cons rfl ((closed_chars w).append ih))

end Value

end Dbml.Json
