import Dbml.Json.Source
import Dbml.Proofs.Data.Presented
import Dbml.Proofs.Json.Scanned

/-!
# Values in JSON documents

A place of a JSON document presents the value that its tree stands for, if the nesting of the
value is less than what is left to the place (`presents_of_value?`). So what is read from a
value is read from its compact and from its pretty text (`read_compact`, `read_pretty`).
-/

namespace Dbml.Json

open Data (Datum Presents)

instance : Data.LawfulSource Place (Except Error) where
  place_pure _ _ := rfl

namespace Tree

/-- What a tree that stands for a value looks like. -/
inductive Shape : Tree → Value → Prop
  | null : Shape .null .null
  | bool (b : Bool) : Shape (.bool b) (.bool b)
  | number {l : Literal} {n : Number} : l.value? = some n → Shape (.number l) (.number n)
  | string (s : String) : Shape (.string (.text s)) (.string s)
  | array {ts : List Tree} {items : List Value} :
    List.Forall₂ (fun t v => t.value? = some v) ts items → Shape (.array ts .closed) (.array items)
  | object {ts : List (StringToken × Tree)} {members : List (String × Value)} :
    List.Forall₂ (fun t m => t.1 = .text m.1 ∧ t.2.value? = some m.2) ts members →
      Shape (.object ts .closed) (.object members)

theorem shape_of_value? {t : Tree} {v : Value} (h : t.value? = some v) : Shape t v := by
  cases t with
  | broken => cases h
  | null => exact Option.some.inj h ▸ .null
  | bool b => exact Option.some.inj h ▸ .bool b
  | number l =>
    obtain ⟨n, hn, rfl⟩ := Option.map_eq_some_iff.mp h
    exact .number hn
  | string token =>
    cases token with
    | text s => exact Option.some.inj h ▸ .string s
    | unreadable | broken => cases h
  | array ts e =>
    cases e with
    | closed =>
      obtain ⟨items, hitems, rfl⟩ := Option.map_eq_some_iff.mp h
      exact .array (values?_eq_some_iff.mp hitems)
    | _ => cases h
  | object ts e =>
    cases e with
    | closed =>
      obtain ⟨members, hmembers, rfl⟩ := Option.map_eq_some_iff.mp h
      exact .object (members?_eq_some_iff.mp hmembers)
    | _ => cases h

/-- One tree alone stands for a value without numbers. -/
theorem eq_of_value? {t t' : Tree} {v : Value} (hv : v.numbers = []) (h : t.value? = some v)
    (h' : t'.value? = some v) : t = t' := by
  induction v using Value.induction generalizing t t' with
  | null | bool | string =>
    cases shape_of_value? h
    cases shape_of_value? h'
    rfl
  | number => cases hv
  | array items ih =>
    rw [Value.numbers_array, List.flatMap_eq_nil_iff] at hv
    cases shape_of_value? h with
    | @array ts _ hts =>
      cases shape_of_value? h' with
      | @array ts' _ hts' =>
        have hone : List.Forall₂ (fun t' v => ∀ t : Tree, t.value? = some v → t = t') ts' items :=
          forall₂_imp_of_mem hts' fun v hmem t' ht' t ht => ih v hmem (hv v hmem) ht ht'
        have heq : List.Forall₂ (· = ·) ts ts' :=
          (forall₂_of_common hts hone).imp fun t t' ⟨_, ht, h⟩ => h t ht
        rw [List.forall₂_eq_eq_eq] at heq
        rw [heq]
  | object members ih =>
    rw [Value.numbers_object, List.flatMap_eq_nil_iff] at hv
    cases shape_of_value? h with
    | @object ts _ hts =>
      cases shape_of_value? h' with
      | @object ts' _ hts' =>
        have hone : List.Forall₂ (fun t' m => ∀ t : StringToken × Tree,
            t.1 = .text m.1 ∧ t.2.value? = some m.2 → t = t') ts' members :=
          forall₂_imp_of_mem hts' fun m hmem t' ht' t ht =>
            Prod.ext (ht.1.trans ht'.1.symm) (ih m hmem (hv m hmem) ht.2 ht'.2)
        have heq : List.Forall₂ (· = ·) ts ts' :=
          (forall₂_of_common hts hone).imp fun t t' ⟨_, ht, h⟩ => h t ht
        rw [List.forall₂_eq_eq_eq] at heq
        rw [heq]

/-- The compact text of a value without numbers is scanned as the tree that stands for it. -/
theorem scan_compact_of_value? {t : Tree} {v : Value} (hv : v.numbers = [])
    (h : t.value? = some v) : scan v.compact.toList = (t, false) := by
  obtain ⟨t', ht', hvalue⟩ := scan_compact (v := v) (by rw [hv]; nofun)
  rw [ht', eq_of_value? hv hvalue h]

theorem dataOf_eq {depth : Nat} {ts : List Tree} {items : List Value}
    (h : List.Forall₂ (fun t v => t.datum depth = .ok (Datum.ofValue v)) ts items) :
    dataOf depth ts = .ok (Datum.ofItems items) := by
  induction h with
  | nil => rfl
  | cons ht _ ih =>
    rw [dataOf, ht, ih]
    rfl

theorem entriesOf_eq {depth : Nat} {ts : List (StringToken × Tree)}
    {members : List (String × Value)}
    (h : List.Forall₂ (fun t m => t.1 = .text m.1 ∧ t.2.datum depth = .ok (Datum.ofValue m.2))
      ts members) : entriesOf depth ts = .ok (Datum.ofMembers members) := by
  induction h with
  | nil => rfl
  | cons ht _ ih =>
    obtain ⟨hname, ht⟩ := ht
    rw [entriesOf, hname, ht, ih]
    rfl

end Tree

theorem enter_succ {depth : Nat} (h : 0 < depth) : enter (depth + 1) = .ok depth :=
  if_neg (by omega)

theorem datum_of_value? {t : Tree} {v : Value} {depth : Nat} (h : t.value? = some v)
    (hd : v.nesting < depth) : t.datum depth = .ok (Datum.ofValue v) := by
  induction v using Value.induction generalizing t depth with
  | null | bool | string =>
    cases Tree.shape_of_value? h
    rfl
  | number n =>
    cases Tree.shape_of_value? h with
    | number hn =>
      rw [Tree.datum, Literal.value, hn]
      rfl
  | array items ih =>
    cases Tree.shape_of_value? h with
    | array hts =>
      obtain ⟨depth, rfl⟩ : ∃ n, depth = n + 1 := ⟨depth - 1, by omega⟩
      obtain ⟨hpos, hitems⟩ := Value.nesting_array_lt.mp hd
      have hdata := Tree.dataOf_eq <| forall₂_imp_of_mem hts fun v hv t ht =>
        ih v hv ht (hitems v hv)
      rw [Tree.datum, enter_succ hpos]
      change (Tree.dataOf depth _ >>= _) = _
      rw [hdata]
      rfl
  | object members ih =>
    cases Tree.shape_of_value? h with
    | object hts =>
      obtain ⟨depth, rfl⟩ : ∃ n, depth = n + 1 := ⟨depth - 1, by omega⟩
      obtain ⟨hpos, hmembers⟩ := Value.nesting_object_lt.mp hd
      have hentries := Tree.entriesOf_eq <| forall₂_imp_of_mem hts fun m hm t ht =>
        ⟨ht.1, ih m hm ht.2 (hmembers m hm)⟩
      rw [Tree.datum, enter_succ hpos]
      change (Tree.entriesOf depth _ >>= _) = _
      rw [hentries]
      rfl

/-- The items of a list are places one level further down. -/
theorem presents_array {ts : List Tree} {items : List Value} {depth : Nat} (hpos : 0 < depth)
    (hdatum : (Tree.array ts .closed).datum (depth + 1) = .ok (Datum.ofValue (.array items)))
    (h : List.Forall₂ (fun t v => Presents (⟨t, depth⟩ : Place) v) ts items) :
    Presents (⟨.array ts .closed, depth + 1⟩ : Place) (.array items) := by
  refine ⟨⟨rfl, congrArg lift hdatum⟩, Place.itemsAt depth ts .closed, ?_, rfl, ?_⟩
  · change (lift (enter (depth + 1)) >>= _) = _
    rw [enter_succ hpos]
    rfl
  · rw [Data.presentsItems_iff, Place.itemsAt, List.forall₂_map_left_iff]
    exact h

/-- The members of an object are places one level further down, with or without a tag. -/
theorem presents_object {ts : List (StringToken × Tree)} {members : List (String × Value)}
    {depth : Nat} (hpos : 0 < depth)
    (hdatum : (Tree.object ts .closed).datum (depth + 1) = .ok (Datum.ofValue (.object members)))
    (h : List.Forall₂ (fun t m => t.1 = .text m.1 ∧ Presents (⟨t.2, depth⟩ : Place) m.2)
      ts members) :
    Presents (⟨.object ts .closed, depth + 1⟩ : Place) (.object members) := by
  let places : List (Except Error Datum × Place) :=
    ts.map fun t => (lift (Datum.text <$> t.1.value), ⟨t.2, depth⟩)
  have hplaces : Data.PresentsMembers places members := by
    rw [Data.presentsMembers_iff, List.forall₂_map_left_iff]
    refine h.imp fun t m htm => ⟨?_, htm.2⟩
    change lift (Datum.text <$> t.1.value) = _
    rw [htm.1]
    rfl
  have hnamed (e : Data.Expected) : Place.members e ⟨.object ts .closed, depth + 1⟩ =
      .ok (.named places (pure ())) := by
    change (lift (enter (depth + 1)) >>= _) = _
    rw [enter_succ hpos]
    rfl
  exact ⟨⟨rfl, congrArg lift hdatum⟩, fun e => ⟨places, hnamed e, hplaces⟩,
    fun _ e => ⟨places, hnamed e, hplaces⟩⟩

/-- A tree presents the value that it stands for, where that may be nested so deep. -/
theorem presents_of_value? {t : Tree} {v : Value} {depth : Nat} (h : t.value? = some v)
    (hd : v.nesting < depth) : Presents (⟨t, depth⟩ : Place) v := by
  have hdatum := datum_of_value? h hd
  induction v using Value.induction generalizing t depth with
  | null =>
    cases Tree.shape_of_value? h
    exact ⟨rfl, rfl⟩
  | bool b =>
    cases Tree.shape_of_value? h
    exact ⟨⟨rfl, rfl⟩, rfl⟩
  | number n =>
    cases Tree.shape_of_value? h
    exact ⟨rfl, congrArg lift hdatum⟩
  | string s =>
    cases Tree.shape_of_value? h
    refine ⟨⟨rfl, rfl⟩, fun _ => rfl, fun α recognise a ha => ?_⟩
    change (recognise s).mapError _ = _
    rw [ha]
    rfl
  | array items ih =>
    cases Tree.shape_of_value? h with
    | array hts =>
      obtain ⟨depth, rfl⟩ : ∃ n, depth = n + 1 := ⟨depth - 1, by omega⟩
      obtain ⟨hpos, hitems⟩ := Value.nesting_array_lt.mp hd
      refine presents_array hpos hdatum (forall₂_imp_of_mem hts fun v hv t ht => ?_)
      exact ih v hv ht (hitems v hv) (datum_of_value? ht (hitems v hv))
  | object members ih =>
    cases Tree.shape_of_value? h with
    | object hts =>
      obtain ⟨depth, rfl⟩ : ∃ n, depth = n + 1 := ⟨depth - 1, by omega⟩
      obtain ⟨hpos, hmembers⟩ := Value.nesting_object_lt.mp hd
      refine presents_object hpos hdatum (forall₂_imp_of_mem hts fun m hm t ht => ⟨ht.1, ?_⟩)
      exact ih m hm ht.2 (hmembers m hm) (datum_of_value? ht.2 (hmembers m hm))

/-! ## Reading printed values -/

variable {α : Type} {reader : Place → Except Error α} {v : Value} {a : α}
  (hr : Data.Reads reader v a) (hn : ∀ n ∈ v.numbers, n.IsWordInteger) (hd : v.nesting < maxDepth)
include hr hd

theorem read_eq {text : String} (h : ∃ t, Tree.scan text.toList = (t, false) ∧ t.value? = some v) :
    read reader text = .ok a := by
  obtain ⟨t, ht, hvalue⟩ := h
  have hread : reader ⟨t, maxDepth⟩ = .ok a := hr _ (presents_of_value? hvalue hd)
  rw [read, ht]
  change (reader ⟨t, maxDepth⟩ >>= _) = _
  rw [hread]
  rfl

include hn

/-- What is read from a value is read from its compact text. -/
theorem read_compact : read reader v.compact = .ok a := read_eq hr hd (Tree.scan_compact hn)

/-- What is read from a value is read from its pretty text. -/
theorem read_pretty : read reader v.pretty = .ok a := read_eq hr hd (Tree.scan_pretty hn)

end Dbml.Json
