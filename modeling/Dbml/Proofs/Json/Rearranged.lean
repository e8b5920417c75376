import Dbml.Proofs.Json.ReorderedData

/-!
# Rearranged documents

Where typed data are read, more may be done to a tree than to reorder it: an object that is read as
a record may also get further members that the record has no fields for. A `Rearrangement` says
what may be done, by the type of the data: `any` to data of any type, `list` to the items of a
list, `record` to the values of a record's members. Readers read the same from a place and from
the place rearranged (`respects_list`, `respects_record`).
-/

namespace Dbml.Json

open Data (Datum Expected Items Members MemberFollows MembersFollow Mismatch PositionsFollow
  Respects Slot Source FaultySource)

/-- What may be done to a tree: at least to reorder it, and nothing that makes or removes a
`null`. -/
structure Rearrangement where
  Holds : Tree → Tree → Prop
  of_reordered {t t' : Tree} : Tree.Reordered t t' → Holds t t'
  null_iff {t t' : Tree} : Holds t t' → (t' = .null ↔ t = .null)

namespace Rearrangement

open Json.Tree (Reordered reordered_array reordered_object)

theorem null_iff_of_reordered {t t' : Tree} (h : Reordered t t') : t' = .null ↔ t = .null := by
  cases t with
  | broken | null | bool | number | string =>
    have heq : t' = _ := h
    rw [heq]
  | array =>
    obtain ⟨_, rfl, -⟩ := reordered_array.mp h
    exact ⟨nofun, nofun⟩
  | object =>
    obtain ⟨_, _, rfl, -⟩ := reordered_object.mp h
    exact ⟨nofun, nofun⟩

/-- Data of any type may be reordered. -/
def any : Rearrangement := ⟨Reordered, id, null_iff_of_reordered⟩

/-! ## Lists -/

/-- Item by item. -/
def ListHolds (ρ : Rearrangement) : Tree → Tree → Prop
  | .array items e, t' => ∃ items', t' = .array items' e ∧ List.Forall₂ ρ.Holds items items'
  | t, t' => Reordered t t'

/-- A list may be rearranged in its items. -/
def list (ρ : Rearrangement) : Rearrangement where
  Holds := ListHolds ρ
  of_reordered {t t'} h := by
    cases t with
    | broken | null | bool | number | string | object => exact h
    | array items e =>
      obtain ⟨items', rfl, hitems⟩ := reordered_array.mp h
      exact ⟨items', rfl, hitems.imp fun _ _ => ρ.of_reordered⟩
  null_iff {t t'} h := by
    cases t with
    | broken | null | bool | number | string | object => exact null_iff_of_reordered h
    | array =>
      obtain ⟨_, rfl, -⟩ := h
      exact ⟨nofun, nofun⟩

/-! ## Records -/

variable (fields : List (String × Rearrangement))

/-- What may be done to the value of a member: if there is a field of its name, what the field
allows. -/
def ofKey : StringToken → Rearrangement
  | .text name => (fields.lookup name).getD any
  | .unreadable _ | .broken _ => any

/-- Whether a member is rearranged. -/
def MemberHolds (m m' : StringToken × Tree) : Prop :=
  m'.1 = m.1 ∧ (ofKey fields m.1).Holds m.2 m'.2

theorem MemberHolds.refl (m : StringToken × Tree) : MemberHolds fields m m :=
  ⟨rfl, (ofKey fields m.1).of_reordered (.refl m.2)⟩

/-- Whether a tree is `null`, a boolean, a number or a text. -/
def IsPlain : Tree → Prop
  | .null | .bool _ => True
  | .number literal => ∃ n, literal.value? = some n
  | .string token => ∃ s, token = .text s
  | .broken _ _ | .array _ _ | .object _ _ => False

/-- Whether a member is a further one, of a name that no field has. -/
def IsFurther (m : StringToken × Tree) : Prop :=
  ∃ name, m.1 = .text name ∧ name ∉ fields.map (·.1) ∧ IsPlain m.2

/-- Item by item, in the order of fields. -/
def ItemsHold : List Rearrangement → List Tree → List Tree → Prop
  | ρ :: ρs, t :: items, items' =>
    ∃ t' rest, items' = t' :: rest ∧ ρ.Holds t t' ∧ ItemsHold ρs items rest
  | _, items, items' => List.Forall₂ Reordered items items'

/-- Members may be rearranged, joined by further ones and put in any order. -/
def RecordHolds : Tree → Tree → Prop
  | .object members e, t' => ∃ kept added members', t' = .object members' e ∧
    List.Forall₂ (MemberHolds fields) members kept ∧ (∀ m ∈ added, IsFurther fields m) ∧
      (kept ++ added).Perm members'
  | .array items e, t' => ∃ items', t' = .array items' e ∧ ItemsHold (fields.map (·.2)) items items'
  | t, t' => Reordered t t'

theorem itemsHold_of_forall₂ {items items' : List Tree} (h : List.Forall₂ Reordered items items')
    (ρs : List Rearrangement) : ItemsHold ρs items items' := by
  induction h generalizing ρs with
  | nil => cases ρs <;> exact .nil
  | cons ht hrest ih =>
    cases ρs with
    | nil => exact .cons ht hrest
    | cons ρ ρs => exact ⟨_, _, rfl, ρ.of_reordered ht, ih ρs⟩

/-- A record may be rearranged in its members. -/
def record : Rearrangement where
  Holds := RecordHolds fields
  of_reordered {t t'} h := by
    cases t with
    | broken | null | bool | number | string => exact h
    | array items e =>
      obtain ⟨items', rfl, hitems⟩ := reordered_array.mp h
      exact ⟨items', rfl, itemsHold_of_forall₂ hitems _⟩
    | object members e =>
      obtain ⟨kept, members', rfl, hkept, hperm⟩ := reordered_object.mp h
      refine ⟨kept, [], members', rfl, hkept.imp fun m m' hm => ?_, nofun, ?_⟩
      · exact ⟨hm.1, (ofKey fields m.1).of_reordered hm.2⟩
      · rwa [List.append_nil]
  null_iff {t t'} h := by
    cases t with
    | broken | null | bool | number | string => exact null_iff_of_reordered h
    | array =>
      obtain ⟨_, rfl, -⟩ := h
      exact ⟨nofun, nofun⟩
    | object =>
      obtain ⟨_, _, _, rfl, -⟩ := h
      exact ⟨nofun, nofun⟩

end Rearrangement

/-! ## Places -/

namespace Place

open Json.Tree (Reordered)

/-- Whether a place is another one rearranged. The names of each object are distinct. -/
structure Related (ρ : Rearrangement) (c c' : Place) : Prop where
  depth : c'.depth = c.depth
  distinct : c.tree.Distinct
  tree : ρ.Holds c.tree c'.tree

theorem related_mk {ρ : Rearrangement} {t t' : Tree} (hdistinct : t.Distinct) (h : ρ.Holds t t')
    (depth : Nat) : Related ρ ⟨t, depth⟩ ⟨t', depth⟩ := ⟨rfl, hdistinct, h⟩

instance : FaultySource Place Error where
  fail_ne _ _ := nofun
  place_eq _ _ := rfl

variable {α : Type} {read : Place → Except Error α} {ρ : Rearrangement}

theorem lift_eq_ok_iff {result : Except Malformed α} {a : α} :
    lift result = .ok a ↔ result = .ok a := mapError_eq_ok_iff

theorem refuse_ne (c : Place) (e : Expected) (a : α) : c.refuse e ≠ .ok a := by
  intro h
  obtain ⟨_, -, h⟩ := bind_eq_ok_iff.mp h
  cases h

/-- What is read only from trees that have but one order is read the same from them in any. -/
theorem respects_of_eq
    (h : ∀ c a, read c = .ok a → ∀ t', Reordered c.tree t' → t' = c.tree) :
    Respects (Related .any) read := by
  rintro ⟨t, depth⟩ ⟨t', depth'⟩ a ⟨rfl, -, htree⟩ hread
  obtain rfl := h _ a hread t' htree
  exact hread

theorem respects_text (e : Expected) : Respects (Related .any) (Source.text (σ := Place) e) := by
  refine respects_of_eq ?_
  rintro ⟨t, depth⟩ s hread t' ht
  cases t with
  | broken | null | bool | number | string => exact ht
  | array | object => cases hread

theorem respects_bool : Respects (Related .any) (Source.bool (σ := Place)) := by
  refine respects_of_eq ?_
  rintro ⟨t, depth⟩ b hread t' ht
  cases t with
  | broken | null | bool | number | string => exact ht
  | array | object => cases hread

/-- An object that stands for a name gives nothing to it, as its one key. -/
theorem members_of_variant {recognise : String → Except Mismatch α}
    {members : List (StringToken × Tree)} {e : ObjectEnd} {depth : Nat} {a : α}
    (h : Place.variant recognise ⟨.object members e, depth⟩ = .ok a) :
    ∃ key, members = [(key, .null)] := by
  obtain ⟨_, -, h⟩ := bind_eq_ok_iff.mp h
  match members with
  | [] =>
    obtain ⟨_, -, h⟩ := bind_eq_ok_iff.mp h
    cases h
  | (key, value) :: more =>
    obtain ⟨_, -, h⟩ := bind_eq_ok_iff.mp h
    obtain ⟨_, -, h⟩ := bind_eq_ok_iff.mp h
    cases value with
    | null =>
      cases more with
      | nil => exact ⟨key, rfl⟩
      | cons => cases h
    | broken | bool | number | string | array | object =>
      obtain ⟨u, h, -⟩ := bind_eq_ok_iff.mp h
      exact absurd h (refuse_ne _ .unit u)

theorem respects_variant (recognise : String → Except Mismatch α) :
    Respects (Related .any) (Source.variant (σ := Place) recognise) := by
  refine respects_of_eq ?_
  rintro ⟨t, depth⟩ a hread t' ht
  cases t with
  | broken | null | bool | number | string => exact ht
  | array => cases hread
  | object members e =>
    obtain ⟨key, rfl⟩ := members_of_variant hread
    obtain ⟨kept, members', rfl, hkept, hperm⟩ := Tree.reordered_object.mp ht
    obtain ⟨⟨key', t'⟩, rest, ⟨rfl, hnull⟩, hrest, rfl⟩ := List.forall₂_cons_left_iff.mp hkept
    obtain rfl := List.forall₂_nil_left_iff.mp hrest
    obtain rfl : t' = .null := hnull
    rw [List.singleton_perm.mp hperm]

theorem respects_pass : Respects (Related .any) (Source.pass (σ := Place)) := by
  rintro c c' ⟨⟩ ⟨-, -, htree⟩ hpass
  exact lift_eq_ok_iff.mpr (Tree.pass_of_reordered htree (lift_eq_ok_iff.mp hpass))

/-- What is read untyped is so at a place that is reordered, but for order. -/
theorem exists_datum_of_related {c c' : Place} (hc : Related .any c c') {d : Datum}
    (h : Source.datum c = .ok d) : ∃ d', Source.datum c' = .ok d' ∧ Tree.SameData d d' := by
  obtain ⟨t, depth⟩ := c
  obtain ⟨t', _⟩ := c'
  obtain ⟨rfl, hdistinct, ht⟩ := hc
  have hd := lift_eq_ok_iff.mp h
  obtain ⟨d', hd'⟩ := Tree.exists_datum_of_reordered ht hd
  exact ⟨d', lift_eq_ok_iff.mpr hd', t, t', _, ht, hdistinct, hd, hd'⟩

theorem readOptional_eq_ok_iff {c : Place} {o : Option α} :
    Data.readOptional read c = .ok o ↔ c.tree = .null ∧ o = none ∨
      c.tree ≠ .null ∧ ∃ a, read c = .ok a ∧ o = some a := by
  obtain ⟨t, depth⟩ := c
  have hsome : some <$> read ⟨t, depth⟩ = .ok o ↔ ∃ a, read ⟨t, depth⟩ = .ok a ∧ o = some a :=
    map_eq_ok_iff.trans (exists_congr fun _ => and_congr_right fun _ => eq_comm)
  cases t with
  | null =>
    constructor
    · intro h
      exact .inl ⟨rfl, (Except.ok.inj h).symm⟩
    · rintro (⟨-, rfl⟩ | ⟨h, -⟩)
      · rfl
      · exact absurd rfl h
  | broken | bool | number | string | array | object =>
    constructor
    · intro h
      exact .inr ⟨nofun, hsome.mp h⟩
    · rintro (⟨⟨⟩, -⟩ | ⟨-, h⟩)
      exact hsome.mpr h

theorem respects_optional (h : Respects (Related ρ) read) :
    Respects (Related ρ) (Data.readOptional read) := by
  intro c c' o hc hread
  have hnull := ρ.null_iff hc.tree
  obtain ⟨hc', rfl⟩ | ⟨hc', a, ha, rfl⟩ := readOptional_eq_ok_iff.mp hread
  · exact readOptional_eq_ok_iff.mpr (.inl ⟨hnull.mpr hc', rfl⟩)
  · exact readOptional_eq_ok_iff.mpr (.inr ⟨hnull.not.mpr hc', a, h hc ha, rfl⟩)

theorem items_eq_ok_iff {c : Place} {places : Items Place (Except Error)} :
    Source.items c = .ok places ↔ ∃ items e inner, c.tree = .array items e ∧
      enter c.depth = .ok inner ∧ places = itemsAt inner items e := by
  constructor
  · intro h
    change Place.items c = .ok places at h
    unfold Place.items at h
    split at h
    · next items e htree =>
      obtain ⟨inner, hinner, hplaces⟩ := bind_eq_ok_iff.mp h
      exact ⟨items, e, inner, htree, lift_eq_ok_iff.mp hinner, (Except.ok.inj hplaces).symm⟩
    · exact absurd h (refuse_ne c .sequence places)
  · obtain ⟨t, depth⟩ := c
    rintro ⟨items, e, inner, rfl, hinner, rfl⟩
    exact bind_eq_ok_iff.mpr ⟨inner, lift_eq_ok_iff.mpr hinner, rfl⟩

/-- A member of an object, as it is read. -/
def memberAt (depth : Nat) (m : StringToken × Tree) : Except Error Datum × Place :=
  (lift (Datum.text <$> m.1.value), ⟨m.2, depth⟩)

theorem members_eq_ok_iff {c : Place} {expected : Expected} {places : Members Place (Except Error)} :
    Source.members expected c = .ok places ↔
      (∃ members e inner, c.tree = .object members e ∧ enter c.depth = .ok inner ∧
        places = .named (members.map (memberAt inner)) (lift e.more)) ∨
      ∃ items e inner, c.tree = .array items e ∧ enter c.depth = .ok inner ∧
        places = .positional (itemsAt inner items e) := by
  constructor
  · intro h
    change Place.members expected c = .ok places at h
    unfold Place.members at h
    split at h
    · next members e htree =>
      obtain ⟨inner, hinner, hplaces⟩ := bind_eq_ok_iff.mp h
      exact .inl ⟨members, e, inner, htree, lift_eq_ok_iff.mp hinner,
        (Except.ok.inj hplaces).symm⟩
    · next items e htree =>
      obtain ⟨inner, hinner, hplaces⟩ := bind_eq_ok_iff.mp h
      exact .inr ⟨items, e, inner, htree, lift_eq_ok_iff.mp hinner,
        (Except.ok.inj hplaces).symm⟩
    · exact absurd h (refuse_ne c expected places)
  · obtain ⟨t, depth⟩ := c
    rintro (⟨members, e, inner, rfl, hinner, rfl⟩ | ⟨items, e, inner, rfl, hinner, rfl⟩)
    · exact bind_eq_ok_iff.mpr ⟨inner, lift_eq_ok_iff.mpr hinner, rfl⟩
    · exact bind_eq_ok_iff.mpr ⟨inner, lift_eq_ok_iff.mpr hinner, rfl⟩

/-- The items of a list are read the same from the items rearranged. -/
theorem respects_list (h : Respects (Related ρ) read) :
    Respects (Related (.list ρ)) (Data.readList read) := by
  rintro ⟨t, depth⟩ ⟨t', _⟩ as ⟨rfl, hdistinct, htree⟩ hread
  refine Data.readList_of_follows (fun places hplaces => ?_) hread
  obtain ⟨items, e, inner, rfl, hinner, rfl⟩ := items_eq_ok_iff.mp hplaces
  obtain ⟨items', rfl, hitems⟩ := htree
  refine ⟨_, items_eq_ok_iff.mpr ⟨items', e, inner, rfl, hinner, rfl⟩, rfl, ?_⟩
  have hboth := (List.forall₂_and_left items items').mpr ⟨Tree.distinct_array.mp hdistinct, hitems⟩
  refine List.forall₂_map_left_iff.mpr (List.forall₂_map_right_iff.mpr (hboth.imp ?_))
  intro t t' ht a
  exact h (related_mk ht.1 ht.2 inner)

/-- A list whose items are read the same in any order of members. -/
theorem respects_anyList {α : Type} {read : Place → Except Error α}
    (h : Respects (Related .any) read) : Respects (Related .any) (Data.readList read) := by
  intro c c' as hc
  exact respects_list h ⟨hc.depth, hc.distinct, (Rearrangement.list .any).of_reordered hc.tree⟩

/-! ## Records -/

variable {δ : Type} {fields : List (String × Rearrangement)}
  {slots : List (Slot Place (Except Error) δ)}

/-- Whether a slot reads what its field allows to be rearranged. -/
def Admits (field : String × Rearrangement) (slot : Slot Place (Except Error) δ) : Prop :=
  slot.name = field.1 ∧ slot.Respects (Related field.2)

/-- The slot of a name and the field of this name. -/
theorem find?_of_admits (h : List.Forall₂ Admits fields slots) (name : String) :
    slots.find? (·.name == name) = none ∧ fields.lookup name = none ∨
      ∃ slot ρ, slots.find? (·.name == name) = some slot ∧ fields.lookup name = some ρ ∧
        slot.Respects (Related ρ) := by
  induction h with
  | nil => exact .inl ⟨rfl, rfl⟩
  | @cons field slot _ _ hslot _ ih =>
    obtain ⟨fieldName, ρ⟩ := field
    obtain ⟨rfl, hrespects⟩ := hslot
    by_cases hname : slot.name = name
    · subst hname
      refine .inr ⟨slot, ρ, ?_, ?_, hrespects⟩
      · rw [List.find?_cons, beq_self_eq_true]
      · rw [List.lookup_cons, beq_self_eq_true]
    · have hne : (slot.name == name) = false := beq_false_of_ne hname
      have hne' : (name == slot.name) = false := beq_false_of_ne (Ne.symm hname)
      rw [List.find?_cons, hne, List.lookup_cons, hne']
      exact ih

theorem key_eq_ok_iff {key : StringToken} {k : Datum} :
    lift (Datum.text <$> key.value) = .ok k ↔ ∃ name, key = .text name ∧ k = .text name := by
  simp only [lift_eq_ok_iff, map_eq_ok_iff, StringToken.value_eq_ok_iff, eq_comm (b := k)]

/-- A member is read the same if its value is rearranged as its field allows. -/
theorem memberFollows_of_holds (h : List.Forall₂ Admits fields slots) {m m' : StringToken × Tree}
    (hm : Rearrangement.MemberHolds fields m m') (hdistinct : m.2.Distinct) (depth : Nat) :
    MemberFollows slots (memberAt depth m) (memberAt depth m') := by
  obtain ⟨key, t⟩ := m
  obtain ⟨_, t'⟩ := m'
  obtain ⟨rfl, ht⟩ := hm
  refine Data.memberFollows_of_key ?_ ?_
  · intro k hk hslot hpass
    obtain ⟨name, rfl, rfl⟩ := key_eq_ok_iff.mp hk
    obtain ⟨-, hlookup⟩ | ⟨slot, -, hfind, -⟩ := find?_of_admits h name
    · rw [Rearrangement.ofKey, hlookup] at ht
      exact respects_pass (related_mk hdistinct ht depth) hpass
    · cases hfind.symm.trans (Except.ok.inj hslot)
  · intro k slot draft draft' hk hslot hfill
    obtain ⟨name, rfl, rfl⟩ := key_eq_ok_iff.mp hk
    obtain ⟨hfind, -⟩ | ⟨slot', ρ, hfind, hlookup, hrespects⟩ := find?_of_admits h name
    · cases hfind.symm.trans (Except.ok.inj hslot)
    · obtain rfl : slot' = slot := Option.some.inj (hfind.symm.trans (Except.ok.inj hslot))
      rw [Rearrangement.ofKey, hlookup] at ht
      exact hrespects draft (related_mk hdistinct ht depth) hfill

theorem pass_of_isPlain {t : Tree} (h : Rearrangement.IsPlain t) : t.pass = .ok () := by
  cases t with
  | null | bool | number => rfl
  | string token =>
    obtain ⟨s, rfl⟩ := h
    rfl
  | broken | array | object => exact h.elim

/-- A further member is passed over. -/
theorem readMember_of_isFurther (h : List.Forall₂ Admits fields slots) {m : StringToken × Tree}
    (hm : Rearrangement.IsFurther fields m) (depth : Nat) (draft : δ) :
    Data.readMember slots draft (memberAt depth m) = .ok draft := by
  obtain ⟨name, hkey, hname, hplain⟩ := hm
  refine Data.readMember_eq_ok_iff.mpr ⟨.text name, key_eq_ok_iff.mpr ⟨name, hkey, rfl⟩, .inl ?_⟩
  refine ⟨?_, lift_eq_ok_iff.mpr (pass_of_isPlain hplain), rfl⟩
  obtain ⟨hfind, -⟩ | ⟨_, ρ, -, hlookup, -⟩ := find?_of_admits h name
  · exact congrArg Except.ok hfind
  · have hnone : fields.lookup name = none := List.lookup_eq_none_iff.mpr fun field hfield =>
      bne_iff_ne.mpr fun heq => hname (List.mem_map.mpr ⟨field, hfield, heq.symm⟩)
    cases hnone.symm.trans hlookup

theorem length_eq_of_itemsHold {ρs : List Rearrangement} {items items' : List Tree}
    (h : Rearrangement.ItemsHold ρs items items') : items'.length = items.length := by
  induction ρs generalizing items items' with
  | nil => exact h.length_eq.symm
  | cons ρ ρs ih =>
    cases items with
    | nil => exact h.length_eq.symm
    | cons t items =>
      obtain ⟨t', rest, rfl, -, hrest⟩ := h
      exact congrArg (· + 1) (ih hrest)

theorem positionsFollow_of_itemsHold (h : List.Forall₂ Admits fields slots)
    {items items' : List Tree} (hitems : Rearrangement.ItemsHold (fields.map (·.2)) items items')
    (hdistinct : ∀ t ∈ items, t.Distinct) (depth : Nat) :
    PositionsFollow slots (items.map (⟨·, depth⟩)) (items'.map (⟨·, depth⟩)) := by
  induction h generalizing items items' with
  | nil => exact .none
  | cons hslot _ ih =>
    cases items with
    | nil =>
      obtain rfl := List.forall₂_nil_left_iff.mp hitems
      exact .nil
    | cons t items =>
      obtain ⟨t', rest, rfl, ht, hrest⟩ := hitems
      obtain ⟨hdt, hdistinct⟩ := List.forall_mem_cons.mp hdistinct
      exact .cons (fun draft draft' => hslot.2 draft (related_mk hdt ht depth)) (ih hrest hdistinct)

/-- Where the members of a record are, there are those of the record rearranged. -/
theorem exists_members_of_related (h : List.Forall₂ Admits fields slots) {c c' : Place}
    (hc : Related (.record fields) c c') {expected : Expected} {places : Members Place (Except Error)}
    (hplaces : Source.members expected c = .ok places) :
    ∃ places', Source.members expected c' = .ok places' ∧ MembersFollow slots places places' := by
  obtain ⟨t, depth⟩ := c
  obtain ⟨t', _⟩ := c'
  obtain ⟨rfl, hdistinct, htree⟩ := hc
  obtain ⟨members, e, inner, rfl, hinner, rfl⟩ | ⟨items, e, inner, rfl, hinner, rfl⟩ :=
    members_eq_ok_iff.mp hplaces
  · obtain ⟨kept, added, members', rfl, hkept, hadded, hperm⟩ := htree
    have hboth := (List.forall₂_and_left members kept).mpr
      ⟨(Tree.distinct_object.mp hdistinct).2, hkept⟩
    have hfollow : List.Forall₂ (MemberFollows slots) (members.map (memberAt inner))
        (kept.map (memberAt inner)) := by
      refine List.forall₂_map_left_iff.mpr (List.forall₂_map_right_iff.mpr (hboth.imp ?_))
      intro m m' hm
      exact memberFollows_of_holds h hm.2 hm.1 inner
    have hskip : ∀ x ∈ added.map (memberAt inner), ∀ draft,
        Data.readMember slots draft x = .ok draft :=
      List.forall_mem_map.mpr fun m hm => readMember_of_isFurther h (hadded m hm) inner
    have horder := hperm.map (memberAt inner)
    rw [List.map_append] at horder
    exact ⟨_, members_eq_ok_iff.mpr (.inl ⟨members', e, inner, rfl, hinner, rfl⟩),
      .named hfollow hskip horder⟩
  · obtain ⟨items', rfl, hitems⟩ := htree
    refine ⟨_, members_eq_ok_iff.mpr (.inr ⟨items', e, inner, rfl, hinner, rfl⟩),
      .positional ?_ rfl ?_⟩
    · exact positionsFollow_of_itemsHold h hitems (Tree.distinct_array.mp hdistinct) inner
    · funext n
      rw [itemsAt, itemsAt, length_eq_of_itemsHold hitems]

/-- A record is read the same from its members rearranged. -/
theorem respects_record (hslots : Data.Independent slots) (h : List.Forall₂ Admits fields slots)
    {name : String} {draft : δ} {finish : δ → Except Mismatch α} :
    Respects (Related (.record fields)) (Data.readRecord name slots draft finish) :=
  fun _ _ _ hc hread =>
    Data.readRecord_of_follows hslots (fun _ => exists_members_of_related h hc) hread

end Place

/-! ## Documents -/

/-- Whether a text is a document, with nothing but blanks after it. -/
def IsDocument (text : String) (t : Tree) : Prop := Tree.scan text.toList = (t, false)

theorem read_eq_ok_iff {text : String} {t : Tree} (h : IsDocument text t) {α : Type}
    {reader : Place → Except Error α} {a : α} :
    read reader text = .ok a ↔ reader ⟨t, maxDepth⟩ = .ok a := by
  rw [read, show Tree.scan text.toList = (t, false) from h]
  change (reader ⟨t, maxDepth⟩ >>= Except.ok) = .ok a ↔ _
  rw [bind_eq_ok_iff]
  constructor
  · rintro ⟨_, hread, ha⟩
    rw [hread, ha]
  · exact fun hread => ⟨a, hread, rfl⟩

/-- A document is read the same from the document rearranged as the reader respects. -/
theorem read_of_holds {ρ : Rearrangement} {α : Type} {reader : Place → Except Error α}
    (hreader : Respects (Place.Related ρ) reader) {text text' : String} {t t' : Tree}
    (h : IsDocument text t) (h' : IsDocument text' t') (hdistinct : t.Distinct)
    (ht : ρ.Holds t t') {a : α} (hread : read reader text = .ok a) : read reader text' = .ok a :=
  have hplace := (read_eq_ok_iff h).mp hread
  (read_eq_ok_iff h').mpr (hreader (Place.related_mk hdistinct ht maxDepth) hplace)

end Dbml.Json
