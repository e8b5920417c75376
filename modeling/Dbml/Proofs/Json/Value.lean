import Dbml.Json.Value

/-!
# What values hold

The numbers and the texts in a value, the names in each of its objects, and how deep it is
nested. What a list or an object holds is what its parts hold (`numbers_array`, `texts_array`,
`keys_array`, `nesting_array_lt` and those of objects).
-/

namespace Dbml.Json

/-- Whether a number is an integer of a word. -/
def Number.IsWordInteger : Number → Prop
  | .integer n => IsWord n
  | .float _ => False

instance : DecidablePred Number.IsWordInteger
  | .integer n => inferInstanceAs (Decidable (Number.IsWord n))
  | .float _ => .isFalse id

namespace Value

/-- Induction on a value, by way of its items or members. -/
@[elab_as_elim]
theorem induction {p : Value → Prop} (null : p .null) (bool : ∀ b, p (.bool b))
    (number : ∀ n, p (.number n)) (string : ∀ s, p (.string s))
    (array : ∀ items, (∀ v ∈ items, p v) → p (.array items))
    (object : ∀ members, (∀ m ∈ members, p m.2) → p (.object members)) (v : Value) : p v :=
  match v with
  | .null => null
  | .bool b => bool b
  | .number n => number n
  | .string s => string s
  | .array items =>
    array items fun v _ => induction null bool number string array object v
  | .object members =>
    object members fun (name, v) hm =>
      have : sizeOf v < sizeOf members := by
        have hpair := List.sizeOf_lt_of_mem hm
        simp only [Prod.mk.sizeOf_spec] at hpair
        omega
      induction null bool number string array object v

mutual

/-- The numbers in a value. -/
def numbers : Value → List Number
  | .null | .bool _ | .string _ => []
  | .number n => [n]
  | .array items => itemsNumbers items
  | .object members => membersNumbers members

def itemsNumbers : List Value → List Number
  | [] => []
  | item :: items => item.numbers ++ itemsNumbers items

def membersNumbers : List (String × Value) → List Number
  | [] => []
  | (_, value) :: members => value.numbers ++ membersNumbers members

end

mutual

/-- The texts in a value, but for the names of members. -/
def texts : Value → List String
  | .null | .bool _ | .number _ => []
  | .string s => [s]
  | .array items => itemsTexts items
  | .object members => membersTexts members

def itemsTexts : List Value → List String
  | [] => []
  | item :: items => item.texts ++ itemsTexts items

def membersTexts : List (String × Value) → List String
  | [] => []
  | (_, value) :: members => value.texts ++ membersTexts members

end

mutual

/-- The names of the members of each object in a value. -/
def keys : Value → List (List String)
  | .null | .bool _ | .number _ | .string _ => []
  | .array items => itemsKeys items
  | .object members => members.map (·.1) :: membersKeys members

def itemsKeys : List Value → List (List String)
  | [] => []
  | item :: items => item.keys ++ itemsKeys items

def membersKeys : List (String × Value) → List (List String)
  | [] => []
  | (_, value) :: members => value.keys ++ membersKeys members

end

mutual

/-- How deep lists and objects are nested in each other. -/
def nesting : Value → Nat
  | .null | .bool _ | .number _ | .string _ => 0
  | .array items => itemsNesting items + 1
  | .object members => membersNesting members + 1

def itemsNesting : List Value → Nat
  | [] => 0
  | item :: items => max item.nesting (itemsNesting items)

def membersNesting : List (String × Value) → Nat
  | [] => 0
  | (_, value) :: members => max value.nesting (membersNesting members)

end

/-- The names in each object are in order, and so distinct. -/
def Ordered (v : Value) : Prop := ∀ names ∈ v.keys, names.Pairwise (· < ·)

instance (v : Value) : Decidable v.Ordered := List.decidableBAll _ _

variable {items : List Value} {members : List (String × Value)}

@[simp] theorem numbers_bool (b : Bool) : (bool b).numbers = [] := rfl

@[simp] theorem numbers_number (n : Number) : (number n).numbers = [n] := rfl

@[simp] theorem numbers_string (s : String) : (string s).numbers = [] := rfl

@[simp]
theorem numbers_array (items : List Value) : (array items).numbers = items.flatMap numbers := by
  change itemsNumbers items = _
  induction items with
  | nil => rfl
  | cons item items ih => rw [itemsNumbers, List.flatMap_cons, ih]

@[simp]
theorem numbers_object (members : List (String × Value)) :
    (object members).numbers = members.flatMap (·.2.numbers) := by
  change membersNumbers members = _
  induction members with
  | nil => rfl
  | cons m members ih => rw [membersNumbers, List.flatMap_cons, ih]

@[simp]
theorem texts_array (items : List Value) : (array items).texts = items.flatMap texts := by
  change itemsTexts items = _
  induction items with
  | nil => rfl
  | cons item items ih => rw [itemsTexts, List.flatMap_cons, ih]

@[simp]
theorem texts_object (members : List (String × Value)) :
    (object members).texts = members.flatMap (·.2.texts) := by
  change membersTexts members = _
  induction members with
  | nil => rfl
  | cons m members ih => rw [membersTexts, List.flatMap_cons, ih]

theorem keys_array (items : List Value) : (array items).keys = items.flatMap keys := by
  change itemsKeys items = _
  induction items with
  | nil => rfl
  | cons item items ih => rw [itemsKeys, List.flatMap_cons, ih]

theorem keys_object (members : List (String × Value)) :
    (object members).keys = members.map (·.1) :: members.flatMap (·.2.keys) := by
  change _ :: membersKeys members = _
  congr 1
  induction members with
  | nil => rfl
  | cons m members ih => rw [membersKeys, List.flatMap_cons, ih]

theorem ordered_array : (array items).Ordered ↔ ∀ v ∈ items, v.Ordered := by
  simp only [Ordered, keys_array, List.mem_flatMap]
  exact ⟨fun h v hv names hn => h names ⟨v, hv, hn⟩, fun h names ⟨v, hv, hn⟩ => h v hv names hn⟩

theorem ordered_object : (object members).Ordered ↔
    (members.map (·.1)).Pairwise (· < ·) ∧ ∀ m ∈ members, m.2.Ordered := by
  simp only [Ordered, keys_object, List.forall_mem_cons, List.mem_flatMap]
  refine and_congr_right fun _ => ?_
  exact ⟨fun h m hm names hn => h names ⟨m, hm, hn⟩, fun h names ⟨m, hm, hn⟩ => h m hm names hn⟩

@[simp] theorem nesting_bool (b : Bool) : (bool b).nesting = 0 := rfl

@[simp] theorem nesting_number (n : Number) : (number n).nesting = 0 := rfl

@[simp] theorem nesting_string (s : String) : (string s).nesting = 0 := rfl

theorem nesting_array_lt {n : Nat} :
    (array items).nesting < n + 1 ↔ 0 < n ∧ ∀ v ∈ items, v.nesting < n := by
  change itemsNesting items + 1 < n + 1 ↔ _
  rw [Nat.add_lt_add_iff_right]
  induction items with
  | nil => simp [itemsNesting]
  | cons item items ih =>
    rw [itemsNesting, Nat.max_lt, ih, List.forall_mem_cons]
    exact and_left_comm

theorem nesting_object_lt {n : Nat} :
    (object members).nesting < n + 1 ↔ 0 < n ∧ ∀ m ∈ members, m.2.nesting < n := by
  change membersNesting members + 1 < n + 1 ↔ _
  rw [Nat.add_lt_add_iff_right]
  induction members with
  | nil => simp [membersNesting]
  | cons m members ih =>
    rw [membersNesting, Nat.max_lt, ih, List.forall_mem_cons]
    exact and_left_comm

end Value

end Dbml.Json
