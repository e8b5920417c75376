import Dbml.Data.Untyped
import Dbml.Proofs.Data.Presented

/-!
# Values as untyped data

A datum that is made of a value presents it (`presents_ofValue`), and no other datum does. So a
value is read back from untyped data, if the members of its objects are in order
(`reads_value`).
-/

namespace Dbml.Data

open Json (Number Value)

instance : LawfulSource Datum (Except Mismatch) where
  place_pure _ _ := rfl

theorem ofItems_eq (items : List Value) : Datum.ofItems items = items.map Datum.ofValue := by
  induction items with
  | nil => rfl
  | cons item items ih => rw [Datum.ofItems, ih, List.map_cons]

theorem ofMembers_eq (members : List (String × Value)) :
    Datum.ofMembers members = members.map fun m => (.text m.1, Datum.ofValue m.2) := by
  induction members with
  | nil => rfl
  | cons m members ih => rw [Datum.ofMembers, ih, List.map_cons]

theorem presents_ofValue (v : Value) : Presents (Datum.ofValue v) v := by
  induction v using Value.induction with
  | null => exact ⟨rfl, rfl⟩
  | bool b => exact ⟨⟨rfl, rfl⟩, rfl⟩
  | number n => exact ⟨rfl, rfl⟩
  | string s => exact ⟨⟨rfl, rfl⟩, fun _ => rfl, fun _ _ _ h => h⟩
  | array items ih =>
    refine ⟨⟨rfl, rfl⟩, Datum.itemsOf (Datum.ofItems items), rfl, rfl, ?_⟩
    rw [presentsItems_iff, Datum.itemsOf, ofItems_eq, List.forall₂_map_left_iff]
    exact List.forall₂_same.mpr ih
  | object members ih =>
    have hmembers : PresentsMembers
        ((Datum.ofMembers members).map fun m => ((.ok m.1 : Except Mismatch Datum), m.2)) members := by
      rw [presentsMembers_iff, ofMembers_eq, List.map_map, List.forall₂_map_left_iff]
      exact List.forall₂_same.mpr fun m hm => ⟨rfl, ih m hm⟩
    exact ⟨⟨rfl, rfl⟩, fun _ => ⟨_, rfl, hmembers⟩, fun _ _ => ⟨_, rfl, hmembers⟩⟩

/-- The datum that presents a value. -/
theorem Presents.eq_ofValue {d : Datum} {v : Value} (h : Presents d v) : d = Datum.ofValue v :=
  Except.ok.inj h.datum

/-! ## Values from data -/

theorem insertMember_of_lt {name : String} {value : Value} {members : List (String × Value)}
    (h : ∀ m ∈ members, m.1 < name) :
    Value.insertMember name value members = members ++ [(name, value)] := by
  induction members with
  | nil => rfl
  | cons m members ih =>
    obtain ⟨hm, hmembers⟩ := List.forall_mem_cons.mp h
    have hne : name ≠ m.1 := fun he => String.lt_irrefl name (he ▸ hm)
    rw [Value.insertMember, if_neg hne, if_neg (String.lt_asymm hm), ih hmembers]
    rfl

/-- Members that are in order are left so. -/
theorem sortMembers_of_pairwise {members : List (String × Value)}
    (h : (members.map (·.1)).Pairwise (· < ·)) : Value.sortMembers members = members := by
  have hfold (sorted : List (String × Value)) (hbefore : ∀ m ∈ sorted, ∀ m' ∈ members, m.1 < m'.1) :
      members.foldl (fun sorted m => Value.insertMember m.1 m.2 sorted) sorted =
        sorted ++ members := by
    induction members generalizing sorted with
    | nil => exact (List.append_nil sorted).symm
    | cons m members ih =>
      obtain ⟨hm, hmembers⟩ := List.pairwise_cons.mp h
      have hlast : Value.insertMember m.1 m.2 sorted = sorted ++ [m] :=
        insertMember_of_lt fun m' hm' => hbefore m' hm' m List.mem_cons_self
      rw [List.foldl_cons, hlast, ih hmembers, List.append_assoc]
      · rfl
      · intro m' hm' m'' hm''
        rcases List.mem_append.mp hm' with hm' | hm'
        · exact hbefore m' hm' m'' (List.mem_cons_of_mem _ hm'')
        · rw [List.mem_singleton.mp hm']
          exact hm m''.1 (List.mem_map_of_mem hm'')
  exact hfold [] nofun

theorem readValues_ofItems {items : List Value}
    (h : ∀ v ∈ items, (Datum.ofValue v).readValue = .ok v) :
    Datum.readValues (Datum.ofItems items) = .ok items := by
  induction items with
  | nil => rfl
  | cons item items ih =>
    obtain ⟨hitem, hitems⟩ := List.forall_mem_cons.mp h
    rw [Datum.ofItems, Datum.readValues, hitem, ih hitems]
    rfl

theorem readEntries_ofMembers {members : List (String × Value)}
    (h : ∀ m ∈ members, (Datum.ofValue m.2).readValue = .ok m.2) (first : Expected) :
    Datum.readEntries first (Datum.ofMembers members) = .ok members := by
  induction members generalizing first with
  | nil => rfl
  | cons m members ih =>
    obtain ⟨hm, hmembers⟩ := List.forall_mem_cons.mp h
    rw [Datum.ofMembers, Datum.readEntries, hm, ih hmembers]
    rfl

theorem readValue_ofValue {v : Value} (h : v.Ordered) : (Datum.ofValue v).readValue = .ok v := by
  induction v using Value.induction with
  | null | bool | number | string => rfl
  | array items ih =>
    have hitems := readValues_ofItems fun v hv => ih v hv (Value.ordered_array.mp h v hv)
    rw [Datum.ofValue, Datum.readValue, hitems]
    rfl
  | object members ih =>
    obtain ⟨hnames, hordered⟩ := Value.ordered_object.mp h
    have hmembers := readEntries_ofMembers (fun m hm => ih m hm (hordered m hm)) .textKey
    rw [Datum.ofValue, Datum.readValue, hmembers]
    exact congrArg (Except.ok ∘ Value.object) (sortMembers_of_pairwise hnames)

theorem reads_number (n : Number) : Reads Datum.readNumber (.number n) n :=
  fun _ hd => hd.eq_ofValue ▸ rfl

/-- A value is read from any datum that presents it. -/
theorem reads_value {v : Value} (h : v.Ordered) : Reads Datum.readValue v v :=
  fun _ hd => hd.eq_ofValue ▸ readValue_ofValue h

end Dbml.Data
