import Dbml.Json.Tree
import Dbml.Proofs.Traversal
import Mathlib.Data.List.Perm.Basic

/-!
# Documents with their members in another order

A tree is another one reordered if the members of its objects are in any order
(`Tree.Reordered`). The names of each object are then distinct in both or in none
(`Distinct.of_reordered`), and what is passed over in one is so in the other
(`pass_of_reordered`).
-/

namespace Dbml.Json

namespace StringToken

/-- The text that a token denotes. -/
def text? : StringToken → Option String
  | .text s => some s
  | .unreadable _ | .broken _ => none

end StringToken

namespace Tree

/-- Induction on a tree, by way of its items or members. -/
@[elab_as_elim]
theorem induction {p : Tree → Prop} (broken : ∀ started fault, p (.broken started fault))
    (null : p .null) (bool : ∀ b, p (.bool b)) (number : ∀ l, p (.number l))
    (string : ∀ token, p (.string token))
    (array : ∀ items ending, (∀ t ∈ items, p t) → p (.array items ending))
    (object : ∀ members ending, (∀ m ∈ members, p m.2) → p (.object members ending))
    (t : Tree) : p t :=
  match t with
  | .broken started fault => broken started fault
  | .null => null
  | .bool b => bool b
  | .number l => number l
  | .string token => string token
  | .array items ending =>
    array items ending fun t _ => induction broken null bool number string array object t
  | .object members ending =>
    object members ending fun (key, t) hm =>
      have : sizeOf t < sizeOf members := by
        have hpair := List.sizeOf_lt_of_mem hm
        simp only [Prod.mk.sizeOf_spec] at hpair
        omega
      induction broken null bool number string array object t

/-! ## Order -/

mutual

/-- Whether a tree is another one with the members of its objects in any order. -/
def Reordered : Tree → Tree → Prop
  | .array items ending, t' => ∃ items', t' = .array items' ending ∧ ReorderedItems items items'
  | .object members ending, t' => ∃ kept members', t' = .object members' ending ∧
    ReorderedMembers members kept ∧ kept.Perm members'
  | t, t' => t' = t

/-- Item by item. -/
def ReorderedItems : List Tree → List Tree → Prop
  | [], items' => items' = []
  | t :: items, items' => ∃ t' rest, items' = t' :: rest ∧ Reordered t t' ∧ ReorderedItems items rest

/-- Member by member, with the same keys. -/
def ReorderedMembers : List (StringToken × Tree) → List (StringToken × Tree) → Prop
  | [], members' => members' = []
  | (key, t) :: members, members' => ∃ t' rest, members' = (key, t') :: rest ∧ Reordered t t' ∧
    ReorderedMembers members rest

end

/-- Whether two members have one key and values that are the same but for order. -/
def ReorderedMember (m m' : StringToken × Tree) : Prop := m'.1 = m.1 ∧ Reordered m.2 m'.2

variable {items items' : List Tree} {members members' : List (StringToken × Tree)} {t t' : Tree}

theorem reorderedItems_iff : ReorderedItems items items' ↔ List.Forall₂ Reordered items items' := by
  induction items generalizing items' with
  | nil => exact List.forall₂_nil_left_iff.symm
  | cons t items ih =>
    rw [ReorderedItems, List.forall₂_cons_left_iff]
    refine exists_congr fun t' => exists_congr fun rest => ?_
    rw [ih]
    exact ⟨fun ⟨h, ht, hs⟩ => ⟨ht, hs, h⟩, fun ⟨ht, hs, h⟩ => ⟨h, ht, hs⟩⟩

theorem reorderedMembers_iff :
    ReorderedMembers members members' ↔ List.Forall₂ ReorderedMember members members' := by
  induction members generalizing members' with
  | nil => exact List.forall₂_nil_left_iff.symm
  | cons m members ih =>
    obtain ⟨key, t⟩ := m
    rw [ReorderedMembers, List.forall₂_cons_left_iff]
    constructor
    · rintro ⟨t', rest, rfl, ht, hs⟩
      exact ⟨(key, t'), rest, ⟨rfl, ht⟩, ih.mp hs, rfl⟩
    · rintro ⟨⟨key', t'⟩, rest, ⟨rfl, ht⟩, hs, rfl⟩
      exact ⟨t', rest, rfl, ht, ih.mpr hs⟩

theorem reordered_array {e : ArrayEnd} : Reordered (.array items e) t' ↔
    ∃ items', t' = .array items' e ∧ List.Forall₂ Reordered items items' := by
  rw [Reordered]
  exact exists_congr fun _ => and_congr_right fun _ => reorderedItems_iff

theorem reordered_object {e : ObjectEnd} : Reordered (.object members e) t' ↔
    ∃ kept members', t' = .object members' e ∧ List.Forall₂ ReorderedMember members kept ∧
      kept.Perm members' := by
  rw [Reordered]
  exact exists_congr fun _ => exists_congr fun _ => and_congr_right fun _ =>
    and_congr_left fun _ => reorderedMembers_iff

theorem Reordered.refl (t : Tree) : Reordered t t := by
  induction t using Tree.induction with
  | broken | null | bool | number | string => rfl
  | array items e ih =>
    exact reordered_array.mpr ⟨items, rfl, List.forall₂_same.mpr ih⟩
  | object members e ih =>
    exact reordered_object.mpr ⟨members, members, rfl,
      List.forall₂_same.mpr fun m hm => ⟨rfl, ih m hm⟩, .refl _⟩

theorem Reordered.symm (h : Reordered t t') : Reordered t' t := by
  induction t using Tree.induction generalizing t' with
  | broken | null | bool | number | string =>
    have heq : t' = _ := h
    exact heq ▸ .refl _
  | array items e ih =>
    obtain ⟨items', rfl, hitems⟩ := reordered_array.mp h
    exact reordered_array.mpr ⟨items, rfl,
      forall₂_imp_of_mem hitems.flip fun t ht t' htt' => ih t ht htt'⟩
  | object members e ih =>
    obtain ⟨kept, members', rfl, hkept, hperm⟩ := reordered_object.mp h
    have hback : List.Forall₂ ReorderedMember kept members :=
      forall₂_imp_of_mem hkept.flip fun m hm m' hmm' => ⟨hmm'.1.symm, ih m hm hmm'.2⟩
    obtain ⟨kept', hkept', hperm'⟩ := List.perm_comp_forall₂ hperm.symm hback
    exact reordered_object.mpr ⟨kept', members, rfl, hkept', hperm'⟩

/-! ## Distinct names -/

/-- The names of members, as far as their keys denote texts. -/
def names (members : List (StringToken × Tree)) : List String :=
  members.filterMap fun m => m.1.text?

mutual

/-- Whether the names of each object are distinct. -/
def Distinct : Tree → Prop
  | .broken _ _ | .null | .bool _ | .number _ | .string _ => True
  | .array items _ => DistinctItems items
  | .object members _ => (names members).Nodup ∧ DistinctMembers members

def DistinctItems : List Tree → Prop
  | [] => True
  | t :: items => t.Distinct ∧ DistinctItems items

def DistinctMembers : List (StringToken × Tree) → Prop
  | [] => True
  | (_, t) :: members => t.Distinct ∧ DistinctMembers members

end

theorem distinct_array {e : ArrayEnd} : (array items e).Distinct ↔ ∀ t ∈ items, t.Distinct := by
  rw [Distinct]
  induction items with
  | nil => exact ⟨fun _ => nofun, fun _ => trivial⟩
  | cons t items ih => rw [DistinctItems, ih, List.forall_mem_cons]

theorem distinct_object {e : ObjectEnd} : (object members e).Distinct ↔
    (names members).Nodup ∧ ∀ m ∈ members, m.2.Distinct := by
  have hmembers : DistinctMembers members ↔ ∀ m ∈ members, m.2.Distinct := by
    induction members with
    | nil => exact ⟨fun _ => nofun, fun _ => trivial⟩
    | cons m members ih => rw [DistinctMembers, ih, List.forall_mem_cons]
  rw [Distinct, hmembers]

theorem names_eq_of_forall₂ (h : List.Forall₂ ReorderedMember members members') :
    names members' = names members := by
  have hkeys : members'.map (·.1) = members.map (·.1) := map_eq_of_forall₂ h fun _ _ h => h.1
  have hnames (ms : List (StringToken × Tree)) :
      names ms = (ms.map (·.1)).filterMap StringToken.text? := by
    rw [List.filterMap_map]
    rfl
  rw [hnames, hnames, hkeys]

theorem Distinct.of_reordered (h : t.Distinct) (ht : Reordered t t') : t'.Distinct := by
  induction t using Tree.induction generalizing t' with
  | broken | null | bool | number | string =>
    have heq : t' = _ := ht
    exact heq ▸ h
  | array items e ih =>
    obtain ⟨items', rfl, hitems⟩ := reordered_array.mp ht
    refine distinct_array.mpr fun t' ht' => ?_
    obtain ⟨t, ht, htt'⟩ := exists_of_mem_forall₂ hitems ht'
    exact ih t ht (distinct_array.mp h t ht) htt'
  | object members e ih =>
    obtain ⟨kept, members', rfl, hkept, hperm⟩ := reordered_object.mp ht
    obtain ⟨hnames, hvalues⟩ := distinct_object.mp h
    refine distinct_object.mpr ⟨?_, fun m' hm' => ?_⟩
    · have hsame : (names kept).Nodup := names_eq_of_forall₂ hkept ▸ hnames
      exact (hperm.filterMap _).nodup hsame
    · obtain ⟨m, hm, -, hmm'⟩ := exists_of_mem_forall₂ hkept (hperm.mem_iff.mpr hm')
      exact ih m hm (hvalues m hm) hmm'

/-! ## Passing over -/

theorem pass_array_eq_ok_iff {e : ArrayEnd} :
    (array items e).pass = .ok () ↔ (∀ t ∈ items, t.pass = .ok ()) ∧ e.pass = .ok () := by
  have hitems : passItems items = .ok () ↔ ∀ t ∈ items, t.pass = .ok () := by
    induction items with
    | nil => exact ⟨fun _ => nofun, fun _ => rfl⟩
    | cons t items ih => rw [passItems, then_eq_ok_iff, List.forall_mem_cons, ih]
  rw [pass, then_eq_ok_iff, hitems]

theorem pass_object_eq_ok_iff {e : ObjectEnd} : (object members e).pass = .ok () ↔
    (∀ m ∈ members, m.1.skip = .ok () ∧ m.2.pass = .ok ()) ∧ e.pass = .ok () := by
  have hmembers : passMembers members = .ok () ↔
      ∀ m ∈ members, m.1.skip = .ok () ∧ m.2.pass = .ok () := by
    induction members with
    | nil => exact ⟨fun _ => nofun, fun _ => rfl⟩
    | cons m members ih =>
      rw [passMembers, then_eq_ok_iff, then_eq_ok_iff, List.forall_mem_cons, ih, and_assoc]
  rw [pass, then_eq_ok_iff, hmembers]

/-- What is passed over is passed over in any order. -/
theorem pass_of_reordered (ht : Reordered t t') (h : t.pass = .ok ()) : t'.pass = .ok () := by
  induction t using Tree.induction generalizing t' with
  | broken | null | bool | number | string =>
    have heq : t' = _ := ht
    exact heq ▸ h
  | array items e ih =>
    obtain ⟨items', rfl, hitems⟩ := reordered_array.mp ht
    obtain ⟨hpass, hend⟩ := pass_array_eq_ok_iff.mp h
    refine pass_array_eq_ok_iff.mpr ⟨fun t' ht' => ?_, hend⟩
    obtain ⟨t, ht, htt'⟩ := exists_of_mem_forall₂ hitems ht'
    exact ih t ht htt' (hpass t ht)
  | object members e ih =>
    obtain ⟨kept, members', rfl, hkept, hperm⟩ := reordered_object.mp ht
    obtain ⟨hpass, hend⟩ := pass_object_eq_ok_iff.mp h
    refine pass_object_eq_ok_iff.mpr ⟨fun m' hm' => ?_, hend⟩
    obtain ⟨m, hm, hkey, hmm'⟩ := exists_of_mem_forall₂ hkept (hperm.mem_iff.mpr hm')
    obtain ⟨hskip, hvalue⟩ := hpass m hm
    exact ⟨hkey ▸ hskip, ih m hm hmm' hvalue⟩

end Tree

end Dbml.Json
