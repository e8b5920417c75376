import Dbml.Proofs.Json.Layout
import Dbml.Proofs.Json.Token
import Dbml.Proofs.Json.Value

/-!
# Printed values are read back

A tree without faults stands for a value (`Tree.value?`). The text of a value, with blanks
between its tokens as in the compact or in the pretty form, is scanned as a tree that stands
for this value, if its numbers are integers of a word (`Tree.scan_compact`,
`Tree.scan_pretty`).
-/

namespace Dbml.Json

open Text (Stops)

/-! ## What trees stand for -/

namespace Tree

mutual

/-- The value that a tree stands for; none for one with faults. -/
def value? : Tree → Option Value
  | .broken _ _ => none
  | .null => some .null
  | .bool b => some (.bool b)
  | .number literal => literal.value?.map .number
  | .string (.text s) => some (.string s)
  | .string _ => none
  | .array items .closed => (values? items).map .array
  | .array _ _ => none
  | .object members .closed => (members? members).map .object
  | .object _ _ => none

def values? : List Tree → Option (List Value)
  | [] => some []
  | item :: items => do
    let first ← item.value?
    let rest ← values? items
    return first :: rest

def members? : List (StringToken × Tree) → Option (List (String × Value))
  | [] => some []
  | (.text name, value) :: members => do
    let first ← value.value?
    let rest ← members? members
    return (name, first) :: rest
  | _ :: _ => none

end

theorem values?_eq_some_iff {ts : List Tree} {vs : List Value} :
    values? ts = some vs ↔ List.Forall₂ (fun t v => t.value? = some v) ts vs := by
  induction ts generalizing vs with
  | nil =>
    rw [List.forall₂_nil_left_iff]
    exact ⟨fun h => (Option.some.inj h).symm, fun h => h ▸ rfl⟩
  | cons t ts ih =>
    simp only [values?, List.forall₂_cons_left_iff, ← ih, bind, Option.bind_eq_some_iff]
    constructor
    · rintro ⟨v, hv, vs, hvs, h⟩
      exact ⟨v, vs, hv, hvs, (Option.some.inj h).symm⟩
    · rintro ⟨v, vs, hv, hvs, rfl⟩
      exact ⟨v, hv, vs, hvs, rfl⟩

theorem members?_eq_some_iff {ts : List (StringToken × Tree)} {vs : List (String × Value)} :
    members? ts = some vs ↔
      List.Forall₂ (fun t v => t.1 = .text v.1 ∧ t.2.value? = some v.2) ts vs := by
  induction ts generalizing vs with
  | nil =>
    rw [List.forall₂_nil_left_iff]
    exact ⟨fun h => (Option.some.inj h).symm, fun h => h ▸ rfl⟩
  | cons t ts ih =>
    obtain ⟨token, t⟩ := t
    rw [List.forall₂_cons_left_iff]
    cases token with
    | text name =>
      simp only [members?, ← ih, bind, Option.bind_eq_some_iff]
      constructor
      · rintro ⟨v, hv, vs, hvs, h⟩
        exact ⟨_, vs, ⟨rfl, hv⟩, hvs, (Option.some.inj h).symm⟩
      · rintro ⟨⟨name, v⟩, vs, ⟨hname, hv⟩, hvs, rfl⟩
        obtain rfl := StringToken.text.inj hname
        exact ⟨v, hv, vs, hvs, rfl⟩
    | unreadable | broken => exact ⟨nofun, fun ⟨_, _, ⟨h, _⟩, _⟩ => nomatch h⟩

end Tree

/-! ## Blanks -/

theorem skipBlanks_append {bs : List Char} (h : ∀ c ∈ bs, isBlank c = true) (cs : List Char) :
    skipBlanks (bs ++ cs) = skipBlanks cs := List.dropWhile_append_of_pos h

theorem skipBlanks_cons {c : Char} (h : isBlank c = false) (cs : List Char) :
    skipBlanks (c :: cs) = c :: cs := List.dropWhile_cons_of_neg (Bool.eq_false_iff.mp h)

/-! ## Scanning -/

/-- A character that a number starts with. -/
def StartsNumber (c : Char) : Prop := c = '-' ∨ c.isDigit = true

instance : DecidablePred StartsNumber := fun _ => inferInstanceAs (Decidable (_ ∨ _))

theorem StartsNumber.ne {c d : Char} (h : StartsNumber c) (hd : ¬ StartsNumber d) : c ≠ d :=
  fun he => hd (he ▸ h)

theorem StartsNumber.isBlank {c : Char} (h : StartsNumber c) : isBlank c = false := by
  simp only [Json.isBlank, Bool.or_eq_false_iff, beq_eq_false_iff_ne]
  exact ⟨⟨⟨h.ne (by decide), h.ne (by decide)⟩, h.ne (by decide)⟩, h.ne (by decide)⟩

theorem head_integerText (n : Int) :
    ∃ c cs, (Number.integerText n).toList = c :: cs ∧ StartsNumber c := by
  unfold Number.integerText
  split
  · exact ⟨'-', _, by rw [String.toList_append]; rfl, .inl rfl⟩
  · rw [Nat.toList_repr]
    obtain ⟨c, cs, hcs⟩ := List.exists_cons_of_ne_nil (Nat.toDigits_ne_nil (b := 10) (n := n.natAbs))
    exact ⟨c, cs, hcs, .inr (Literal.isDigit_of_mem (hcs ▸ List.mem_cons_self))⟩

namespace Tree

theorem scanValue_number {c : Char} (h : StartsNumber c) (fuel : Nat) (cs : List Char) :
    scanValue (fuel + 1) (c :: cs) = scanNumber (c :: cs) := by
  rw [scanValue, skipBlanks_cons h.isBlank]
  split
  · rename_i heq
    cases heq
  all_goals
    rename_i heq
    obtain ⟨rfl, rfl⟩ := List.cons.inj heq
  · exact absurd h (by decide)
  · exact absurd h (by decide)
  · exact absurd h (by decide)
  · exact absurd h (by decide)
  · exact absurd h (by decide)
  · exact absurd h (by decide)
  · exact if_pos h

/-- The text of an integer, up to a character that no number goes on with. -/
theorem scanValue_integerText (n : Int) (fuel : Nat) {rest : List Char}
    (h : Stops ContinuesNumber rest) :
    scanValue (fuel + 1) ((Number.integerText n).toList ++ rest) = (.number (.ofInteger n), rest) := by
  obtain ⟨c, cs, hcs, hc⟩ := head_integerText n
  have hscan := Literal.scan_integerText n h
  rw [hcs, List.cons_append] at hscan ⊢
  rw [scanValue_number hc, scanNumber, hscan]

/-- The token of a text. -/
theorem scanValue_string (s : String) (fuel : Nat) (rest : List Char) :
    scanValue (fuel + 1) ('"' :: (s.toList.flatMap escapeChar ++ '"' :: rest)) =
      (.string (.text s), rest) := by
  rw [scanValue, skipBlanks_cons rfl]
  simp [StringToken.scan_escaped]

/-- Blanks before a value are skipped. -/
theorem scanValue_append {bs : List Char} (h : ∀ c ∈ bs, isBlank c = true) (fuel : Nat)
    (cs : List Char) : scanValue fuel (bs ++ cs) = scanValue fuel cs := by
  cases fuel with
  | zero => rfl
  | succ fuel => rw [scanValue, scanValue, skipBlanks_append h]

section

variable {bs cs : List Char} {c : Char} (hb : ∀ b ∈ bs, isBlank b = true)
  (hc : isBlank c = false)
include hb

theorem scanItems_close (fuel : Nat) (first : Bool) :
    scanItems (fuel + 1) first (bs ++ ']' :: cs) = ([], .closed, cs) := by
  rw [scanItems, skipBlanks_append hb, skipBlanks_cons rfl]
  rfl

theorem scanMembers_close (fuel : Nat) (first : Bool) :
    scanMembers (fuel + 1) first (bs ++ '\x7d' :: cs) = ([], .closed, cs) := by
  rw [scanMembers, skipBlanks_append hb, skipBlanks_cons rfl]
  rfl

theorem scanMembers_first (fuel : Nat) :
    scanMembers (fuel + 1) true (bs ++ '"' :: cs) = scanMember fuel cs := by
  rw [scanMembers, skipBlanks_append hb, skipBlanks_cons rfl]
  rfl

theorem scanMembers_comma (fuel : Nat) :
    scanMembers (fuel + 1) false (',' :: (bs ++ '"' :: cs)) = scanMember fuel cs := by
  have hquote : skipBlanks (bs ++ '"' :: cs) = '"' :: cs := by
    rw [skipBlanks_append hb, skipBlanks_cons rfl]
  simp [scanMembers, skipBlanks_cons (c := ',') rfl, hquote]

include hc

theorem scanItems_first (h : c ≠ ']') (fuel : Nat) :
    scanItems (fuel + 1) true (bs ++ c :: cs) = scanItem fuel (c :: cs) := by
  have hitem : skipBlanks (bs ++ c :: cs) = c :: cs := by
    rw [skipBlanks_append hb, skipBlanks_cons hc]
  simp [scanItems, hitem]

theorem scanItems_comma (h : c ≠ ']') (fuel : Nat) :
    scanItems (fuel + 1) false (',' :: (bs ++ c :: cs)) = scanItem fuel (c :: cs) := by
  have hitem : skipBlanks (bs ++ c :: cs) = c :: cs := by
    rw [skipBlanks_append hb, skipBlanks_cons hc]
  simp [scanItems, skipBlanks_cons (c := ',') rfl, hitem, h]

end

theorem scanItem_eq {fuel : Nat} {cs rest rest' : List Char} {t : Tree} {ts : List Tree}
    {e : ArrayEnd} (ht : scanValue fuel cs = (t, rest))
    (hts : scanItems fuel false rest = (ts, e, rest')) :
    scanItem (fuel + 1) cs = (t :: ts, e, rest') := by
  rw [scanItem, ht]
  simp only [hts]

theorem scanMember_eq {fuel : Nat} {name : String} {cs rest rest' : List Char} {t : Tree}
    {ts : List (StringToken × Tree)} {e : ObjectEnd} (ht : scanValue fuel cs = (t, rest))
    (hts : scanMembers fuel false rest = (ts, e, rest')) :
    scanMember (fuel + 1) (name.toList.flatMap escapeChar ++ '"' :: ':' :: cs) =
      ((.text name, t) :: ts, e, rest') := by
  rw [scanMember, StringToken.scan_escaped]
  simp only [skipBlanks_cons (c := ':') rfl, ht, hts]

end Tree

namespace Layout

variable {l : Layout}

/-- The text of a value, up to where no number goes on, is scanned as a tree that stands for
the value. It starts with a character that closes no list. -/
structure Scanned (l : Layout) (v : Value) : Prop where
  starts : ∀ depth, ∃ c cs, l.chars depth v = c :: cs ∧ isBlank c = false ∧ c ≠ ']'
  scan : ∀ depth fuel rest, 2 * (l.chars depth v).length ≤ fuel → Stops ContinuesNumber rest →
    ∃ t, Tree.scanValue fuel (l.chars depth v ++ rest) = (t, rest) ∧ t.value? = some v

theorem stops_line (l : Layout) (depth : Nat) {c : Char} (hc : ¬ ContinuesNumber c)
    (cs : List Char) : Stops ContinuesNumber (l.line depth ++ c :: cs) := by
  intro b hb
  cases hl : l.line depth with
  | nil =>
    rw [hl] at hb
    exact Option.some.inj hb ▸ hc
  | cons b' bs =>
    rw [hl] at hb
    obtain rfl := Option.some.inj hb
    have hblank := l.line_blank depth b' (hl ▸ List.mem_cons_self)
    simp only [isBlank, Bool.or_eq_true, beq_iff_eq] at hblank
    rcases hblank with ((rfl | rfl) | rfl) | rfl <;> decide

theorem stops_itemsChars (l : Layout) (depth : Nat) (items : List Value) (rest : List Char) :
    Stops ContinuesNumber (l.itemsChars depth items ++ rest) := by
  cases items with
  | nil =>
    rw [itemsChars, List.append_assoc]
    exact l.stops_line depth (by decide) rest
  | cons item items => exact Text.stops_cons.mpr (by decide)

theorem stops_membersChars (l : Layout) (depth : Nat) (members : List (String × Value))
    (rest : List Char) : Stops ContinuesNumber (l.membersChars depth members ++ rest) := by
  cases members with
  | nil =>
    rw [membersChars, List.append_assoc]
    exact l.stops_line depth (by decide) rest
  | cons m members => exact Text.stops_cons.mpr (by decide)

theorem scanItem_chars (rest : List Char) {v : Value} {items : List Value} (hv : l.Scanned v)
    (hitems : ∀ v ∈ items, l.Scanned v) {depth fuel : Nat}
    (hf : 2 * ((l.chars (depth + 1) v).length + (l.itemsChars depth items).length) ≤ fuel) :
    ∃ ts, Tree.scanItem fuel (l.chars (depth + 1) v ++ (l.itemsChars depth items ++ rest)) =
        (ts, .closed, rest) ∧
      List.Forall₂ (fun t v => t.value? = some v) ts (v :: items) := by
  induction items generalizing v fuel with
  | nil =>
    rw [itemsChars, List.append_assoc]
    rw [itemsChars, List.length_append, List.length_singleton] at hf
    obtain ⟨fuel, rfl⟩ : ∃ f, fuel = f + 2 := ⟨fuel - 2, by omega⟩
    obtain ⟨t, ht, hvalue⟩ := hv.scan (depth + 1) (fuel + 1) (l.line depth ++ ']' :: rest)
      (by omega) (l.stops_line depth (by decide) rest)
    exact ⟨[t], Tree.scanItem_eq ht (Tree.scanItems_close (l.line_blank depth) fuel false),
      .cons hvalue .nil⟩
  | cons item items ih =>
    obtain ⟨hitem, hitems⟩ := List.forall_mem_cons.mp hitems
    obtain ⟨c, cs, hcs, hblank, hclose⟩ := hitem.starts (depth + 1)
    obtain ⟨c', cs', hcs', -⟩ := hv.starts (depth + 1)
    rw [itemsChars, List.length_cons, List.length_append, List.length_append] at hf
    have hpos : 0 < (l.chars (depth + 1) v).length := by
      rw [hcs']
      exact Nat.succ_pos _
    obtain ⟨fuel, rfl⟩ : ∃ f, fuel = f + 2 := ⟨fuel - 2, by omega⟩
    obtain ⟨t, ht, hvalue⟩ := hv.scan (depth + 1) (fuel + 1)
      (l.itemsChars depth (item :: items) ++ rest) (by omega)
      (l.stops_itemsChars depth (item :: items) rest)
    have hfuel : 2 * ((l.chars (depth + 1) item).length + (l.itemsChars depth items).length) ≤ fuel := by
      omega
    obtain ⟨ts, hts, hvalues⟩ := ih hitem hitems hfuel
    have hnext : Tree.scanItems (fuel + 1) false (l.itemsChars depth (item :: items) ++ rest) =
        (ts, .closed, rest) := by
      rw [← hts, itemsChars, List.cons_append, List.append_assoc, List.append_assoc, hcs,
        List.cons_append]
      exact Tree.scanItems_comma (l.line_blank _) hblank hclose fuel
    exact ⟨t :: ts, Tree.scanItem_eq ht hnext, .cons hvalue hvalues⟩

theorem scanMember_chars (rest : List Char) (name : String) {v : Value}
    {members : List (String × Value)} (hv : l.Scanned v)
    (hmembers : ∀ m ∈ members, l.Scanned m.2) {depth fuel : Nat}
    (hf : 2 * ((l.chars (depth + 1) v).length + (l.membersChars depth members).length) ≤ fuel) :
    ∃ ts, Tree.scanMember fuel (name.toList.flatMap escapeChar ++ '"' :: ':' ::
          (l.space ++ (l.chars (depth + 1) v ++ (l.membersChars depth members ++ rest)))) =
        (ts, .closed, rest) ∧
      List.Forall₂ (fun t m => t.1 = .text m.1 ∧ t.2.value? = some m.2) ts
        ((name, v) :: members) := by
  induction members generalizing name v fuel with
  | nil =>
    rw [membersChars, List.append_assoc]
    rw [membersChars, List.length_append, List.length_singleton] at hf
    obtain ⟨fuel, rfl⟩ : ∃ f, fuel = f + 2 := ⟨fuel - 2, by omega⟩
    obtain ⟨t, ht, hvalue⟩ := hv.scan (depth + 1) (fuel + 1) (l.line depth ++ '\x7d' :: rest)
      (by omega) (l.stops_line depth (by decide) rest)
    rw [← Tree.scanValue_append l.space_blank] at ht
    exact ⟨[(.text name, t)],
      Tree.scanMember_eq ht (Tree.scanMembers_close (l.line_blank depth) fuel false),
      .cons ⟨rfl, hvalue⟩ .nil⟩
  | cons m members ih =>
    obtain ⟨name', v'⟩ := m
    obtain ⟨hnext, hmembers⟩ := List.forall_mem_cons.mp hmembers
    replace hnext : l.Scanned v' := hnext
    obtain ⟨c, cs, hcs, -⟩ := hv.starts (depth + 1)
    rw [membersChars, List.length_cons, List.length_append, List.length_append,
      List.length_cons, List.length_append, List.length_append] at hf
    have hpos : 0 < (l.chars (depth + 1) v).length := by
      rw [hcs]
      exact Nat.succ_pos _
    obtain ⟨fuel, rfl⟩ : ∃ f, fuel = f + 2 := ⟨fuel - 2, by omega⟩
    obtain ⟨t, ht, hvalue⟩ := hv.scan (depth + 1) (fuel + 1)
      (l.membersChars depth ((name', v') :: members) ++ rest) (by omega)
      (l.stops_membersChars depth ((name', v') :: members) rest)
    have hfuel :
        2 * ((l.chars (depth + 1) v').length + (l.membersChars depth members).length) ≤ fuel := by
      omega
    obtain ⟨ts, hts, hvalues⟩ := ih name' hnext hmembers hfuel
    have hafter : Tree.scanMembers (fuel + 1) false
        (l.membersChars depth ((name', v') :: members) ++ rest) = (ts, .closed, rest) := by
      rw [← hts, membersChars, stringChars]
      simp only [List.cons_append, List.append_assoc, List.nil_append]
      exact Tree.scanMembers_comma (l.line_blank _) fuel
    rw [← Tree.scanValue_append l.space_blank] at ht
    exact ⟨(.text name, t) :: ts, Tree.scanMember_eq ht hafter, .cons ⟨rfl, hvalue⟩ hvalues⟩

/-- The items of a list, from its opening bracket. -/
theorem scanned_array {items : List Value} (h : ∀ v ∈ items, l.Scanned v) :
    l.Scanned (.array items) where
  starts depth := by cases items <;> exact ⟨'[', _, rfl, by decide, by decide⟩
  scan depth fuel rest hf _ := by
    have hitems : ∃ f cs ts, fuel = f + 1 ∧ l.chars depth (.array items) ++ rest = '[' :: cs ∧
        Tree.scanItems f true cs = (ts, .closed, rest) ∧
        List.Forall₂ (fun t v => t.value? = some v) ts items := by
      cases items with
      | nil =>
        obtain ⟨fuel, rfl⟩ : ∃ f, fuel = f + 2 := ⟨fuel - 2, by simp [chars] at hf; omega⟩
        exact ⟨fuel + 1, ']' :: rest, [], rfl, rfl,
          Tree.scanItems_close (List.forall_mem_nil _) fuel true, .nil⟩
      | cons item items =>
        obtain ⟨hitem, hitems⟩ := List.forall_mem_cons.mp h
        obtain ⟨c, cs, hcs, hblank, hclose⟩ := hitem.starts (depth + 1)
        rw [chars, List.length_cons, List.length_append, List.length_append] at hf
        obtain ⟨fuel, rfl⟩ : ∃ f, fuel = f + 2 := ⟨fuel - 2, by omega⟩
        have hfuel :
            2 * ((l.chars (depth + 1) item).length + (l.itemsChars depth items).length) ≤ fuel := by
          omega
        obtain ⟨ts, hts, hvalues⟩ := scanItem_chars rest hitem hitems hfuel
        rw [hcs, List.cons_append] at hts
        refine ⟨fuel + 1, _, ts, rfl, ?_, (Tree.scanItems_first (l.line_blank (depth + 1)) hblank
          hclose fuel).trans hts, hvalues⟩
        rw [chars, hcs]
        simp
    obtain ⟨fuel, cs, ts, rfl, hcs, hts, hvalues⟩ := hitems
    refine ⟨.array ts .closed, ?_, ?_⟩
    · rw [hcs, Tree.scanValue, skipBlanks_cons rfl]
      simp [hts]
    · rw [Tree.value?, Tree.values?_eq_some_iff.mpr hvalues]
      rfl

/-- The members of an object, from its opening brace. -/
theorem scanned_object {members : List (String × Value)} (h : ∀ m ∈ members, l.Scanned m.2) :
    l.Scanned (.object members) where
  starts depth := by cases members <;> exact ⟨'\x7b', _, rfl, by decide, by decide⟩
  scan depth fuel rest hf _ := by
    have hmembers : ∃ f cs ts, fuel = f + 1 ∧
        l.chars depth (.object members) ++ rest = '\x7b' :: cs ∧
        Tree.scanMembers f true cs = (ts, .closed, rest) ∧
        List.Forall₂ (fun t m => t.1 = .text m.1 ∧ t.2.value? = some m.2) ts members := by
      cases members with
      | nil =>
        obtain ⟨fuel, rfl⟩ : ∃ f, fuel = f + 2 := ⟨fuel - 2, by simp [chars] at hf; omega⟩
        exact ⟨fuel + 1, '\x7d' :: rest, [], rfl, rfl,
          Tree.scanMembers_close (List.forall_mem_nil _) fuel true, .nil⟩
      | cons m members =>
        obtain ⟨name, v⟩ := m
        obtain ⟨hv, hmembers⟩ := List.forall_mem_cons.mp h
        replace hv : l.Scanned v := hv
        rw [chars, List.length_cons, List.length_append, List.length_append, List.length_cons,
          List.length_append, List.length_append] at hf
        obtain ⟨fuel, rfl⟩ : ∃ f, fuel = f + 2 := ⟨fuel - 2, by omega⟩
        have hfuel :
            2 * ((l.chars (depth + 1) v).length + (l.membersChars depth members).length) ≤ fuel := by
          omega
        obtain ⟨ts, hts, hvalues⟩ := scanMember_chars rest name hv hmembers hfuel
        refine ⟨fuel + 1, _, ts, rfl, ?_, (Tree.scanMembers_first (l.line_blank (depth + 1))
          fuel).trans hts, hvalues⟩
        rw [chars, stringChars]
        simp
    obtain ⟨fuel, cs, ts, rfl, hcs, hts, hvalues⟩ := hmembers
    refine ⟨.object ts .closed, ?_, ?_⟩
    · rw [hcs, Tree.scanValue, skipBlanks_cons rfl]
      simp [hts]
    · rw [Tree.value?, Tree.members?_eq_some_iff.mpr hvalues]
      rfl

theorem scanned_integer {n : Int} (h : Number.IsWord n) : l.Scanned (.number (.integer n)) where
  starts depth := by
    obtain ⟨c, cs, hcs, hc⟩ := head_integerText n
    exact ⟨c, cs, hcs, hc.isBlank, hc.ne (by decide)⟩
  scan depth fuel rest hf hrest := by
    obtain ⟨c, cs, hcs, hc⟩ := head_integerText n
    change 2 * (Number.integerText n).toList.length ≤ fuel at hf
    rw [hcs, List.length_cons] at hf
    obtain ⟨fuel, rfl⟩ : ∃ f, fuel = f + 1 := ⟨fuel - 1, by omega⟩
    refine ⟨.number (.ofInteger n), Tree.scanValue_integerText n fuel hrest, ?_⟩
    rw [Tree.value?, Literal.value?_ofInteger h]
    rfl

/-- A value whose numbers are integers of a word. -/
theorem scanned_of_numbers (l : Layout) {v : Value} (h : ∀ n ∈ v.numbers, n.IsWordInteger) :
    l.Scanned v := by
  induction v using Value.induction with
  | null =>
    refine ⟨fun _ => ⟨'n', _, rfl, by decide, by decide⟩, fun depth fuel rest hf _ => ?_⟩
    cases fuel with
    | zero => simp [chars] at hf
    | succ fuel => exact ⟨.null, rfl, rfl⟩
  | bool b =>
    refine ⟨fun _ => ?_, fun depth fuel rest hf _ => ⟨.bool b, ?_, rfl⟩⟩
    · cases b <;> exact ⟨_, _, rfl, by decide, by decide⟩
    · cases fuel with
      | zero => cases b <;> simp [chars] at hf
      | succ fuel => cases b <;> rfl
  | number n =>
    have hn := h n List.mem_cons_self
    cases n with
    | integer n => exact scanned_integer hn
    | float x => exact hn.elim
  | string s =>
    refine ⟨fun _ => ⟨'"', _, rfl, by decide, by decide⟩,
      fun depth fuel rest hf _ => ⟨.string (.text s), ?_, rfl⟩⟩
    cases fuel with
    | zero => simp [chars, stringChars] at hf
    | succ fuel =>
      rw [chars, stringChars, List.cons_append, List.append_assoc]
      exact Tree.scanValue_string s fuel rest
  | array items ih =>
    rw [Value.numbers_array] at h
    exact scanned_array fun v hv => ih v hv fun n hn => h n (List.mem_flatMap.mpr ⟨v, hv, hn⟩)
  | object members ih =>
    rw [Value.numbers_object] at h
    exact scanned_object fun m hm => ih m hm fun n hn => h n (List.mem_flatMap.mpr ⟨m, hm, hn⟩)

/-- The text of a value on its own. -/
theorem scan_chars (l : Layout) {v : Value} (h : ∀ n ∈ v.numbers, n.IsWordInteger) :
    ∃ t, Tree.scan (l.chars 0 v) = (t, false) ∧ t.value? = some v := by
  have hf : 2 * (l.chars 0 v).length ≤ Tree.fuelFor (l.chars 0 v) := by
    rw [Tree.fuelFor]
    omega
  obtain ⟨t, ht, hvalue⟩ := (l.scanned_of_numbers h).scan 0 _ [] hf Text.stops_nil
  rw [List.append_nil] at ht
  refine ⟨t, ?_, hvalue⟩
  rw [Tree.scan, ht]
  rfl

end Layout

namespace Tree

variable {v : Value} (h : ∀ n ∈ v.numbers, n.IsWordInteger)
include h

theorem scan_compact : ∃ t, scan v.compact.toList = (t, false) ∧ t.value? = some v := by
  rw [Value.compact, String.toList_ofList, ← Layout.compact_chars 0]
  exact Layout.compact.scan_chars h

theorem scan_pretty : ∃ t, scan v.pretty.toList = (t, false) ∧ t.value? = some v := by
  rw [Value.pretty, String.toList_ofList, ← Layout.pretty_chars 0]
  exact Layout.pretty.scan_chars h

end Tree

end Dbml.Json
