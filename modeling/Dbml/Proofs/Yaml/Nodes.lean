import Dbml.Proofs.Yaml.Tokens
import Dbml.Yaml.Anchors

/-!
# The nodes of printed values

The tokens of a value are read as the node that is like it (`Node.ofTokens?_tokens`), which has
neither properties nor aliases, so that nothing is left of it to number
(`Linked.ofNode?_ofValue`).
-/

namespace Dbml.Yaml

open Json (Value)

/-! ## Nodes -/

namespace Node

mutual

/-- The node of a value. -/
def ofValue : Value → Node
  | .null => .scalar {} "null" .plain
  | .bool b => .scalar {} (if b then "true" else "false") .plain
  | .number n => .scalar {} n.text .plain
  | .string s => .scalar {} s .quoted
  | .array items => .sequence {} (ofItems items)
  | .object members => .mapping {} (ofMembers members)

def ofItems : List Value → List Node
  | [] => []
  | item :: items => ofValue item :: ofItems items

def ofMembers : List (String × Value) → List (Node × Node)
  | [] => []
  | (name, value) :: members => (.scalar {} name .quoted, ofValue value) :: ofMembers members

end

variable {handles : TagHandles} {fuel : Nat} {rest rest' : List Token} {v : Value}

/-- Whether the tokens of a value are read as its node, whatever follows them. -/
def Parses (handles : TagHandles) (v : Value) : Prop :=
  ∀ ⦃fuel : Nat⦄ ⦃rest : List Token⦄, 2 * v.tokens.length ≤ fuel → ∀ block indentless,
    parse handles fuel block indentless (v.tokens ++ rest) = some (ofValue v, rest)

theorem tokens_length_pos (v : Value) : 0 < v.tokens.length := by
  cases v <;> exact Nat.succ_pos _

theorem parse_scalar (text : String) (style : Style) (block indentless : Bool) :
    parse handles (fuel + 1) block indentless (.scalar text style :: rest) =
      some (.scalar {} text style, rest) := rfl

theorem parseFlowElement_eq {node : Node} {nodes : List Node}
    (h : parse handles fuel false false (v.tokens ++ rest) = some (node, rest))
    (hmore : parseFlowSequence handles fuel false rest = some (nodes, rest')) :
    parseFlowElement handles (fuel + 1) (v.tokens ++ rest) = some (node :: nodes, rest') := by
  cases v <;> simp only [Value.tokens, List.cons_append, List.nil_append] at h ⊢ <;>
    simp [parseFlowElement, h, hmore]

theorem parseFlowSequence_first :
    parseFlowSequence handles (fuel + 1) true (v.tokens ++ rest) =
      parseFlowElement handles fuel (v.tokens ++ rest) := by
  cases v <;> simp [Value.tokens, parseFlowSequence]

theorem parse_moreItems {items : List Value} (h : ∀ v ∈ items, Parses handles v)
    (hf : 2 * (Value.moreItemsTokens items).length ≤ fuel) :
    parseFlowSequence handles fuel false (Value.moreItemsTokens items ++ rest) =
      some (ofItems items, rest) := by
  induction items generalizing fuel with
  | nil =>
    obtain ⟨fuel, rfl⟩ : ∃ f, fuel = f + 1 := ⟨fuel - 1, by simp [Value.moreItemsTokens] at hf; omega⟩
    rfl
  | cons item items ih =>
    obtain ⟨hitem, hitems⟩ := List.forall_mem_cons.mp h
    rw [Value.moreItemsTokens, List.length_cons, List.length_append] at hf
    obtain ⟨fuel, rfl⟩ : ∃ f, fuel = f + 2 := ⟨fuel - 2, by omega⟩
    rw [Value.moreItemsTokens, List.cons_append, List.append_assoc]
    exact parseFlowElement_eq (hitem (by omega) false false) (ih hitems (by omega))

theorem parseFlowEntry_eq {name : String} {node : Node} {entries : List (Node × Node)}
    (h : parse handles fuel false false (v.tokens ++ rest) = some (node, rest))
    (hmore : parseFlowMapping handles (fuel + 1) false rest = some (entries, rest')) :
    parseFlowEntry handles (fuel + 2)
        (.key :: .scalar name .quoted :: .value :: (v.tokens ++ rest)) =
      some ((.scalar {} name .quoted, node) :: entries, rest') := by
  have hvalue : parseFlowValue handles (fuel + 1) (.value :: (v.tokens ++ rest)) =
      some (node, rest) := by
    cases v <;> simp only [Value.tokens, List.cons_append, List.nil_append] at h ⊢ <;>
      simp [parseFlowValue, h]
  simp [parseFlowEntry, parse_scalar, hvalue, hmore]

theorem parse_moreMembers {members : List (String × Value)}
    (h : ∀ m ∈ members, Parses handles m.2)
    (hf : 2 * (Value.moreMembersTokens members).length ≤ fuel) :
    parseFlowMapping handles fuel false (Value.moreMembersTokens members ++ rest) =
      some (ofMembers members, rest) := by
  induction members generalizing fuel with
  | nil =>
    obtain ⟨fuel, rfl⟩ : ∃ f, fuel = f + 1 :=
      ⟨fuel - 1, by simp [Value.moreMembersTokens] at hf; omega⟩
    rfl
  | cons m members ih =>
    obtain ⟨name, v⟩ := m
    obtain ⟨hv, hmembers⟩ := List.forall_mem_cons.mp h
    replace hv : Parses handles v := hv
    rw [Value.moreMembersTokens] at hf
    simp only [List.length_cons, List.length_append] at hf
    obtain ⟨fuel, rfl⟩ : ∃ f, fuel = f + 3 := ⟨fuel - 3, by omega⟩
    rw [Value.moreMembersTokens]
    simp only [List.cons_append, List.append_assoc]
    exact parseFlowEntry_eq (hv (by omega) false false) (ih hmembers (by omega))

theorem parses (handles : TagHandles) (v : Value) : Parses handles v := by
  induction v using Value.induction with
  | null | bool | number | string =>
    intro fuel rest hf block indentless
    obtain ⟨fuel, rfl⟩ : ∃ f, fuel = f + 1 := ⟨fuel - 1, by simp [Value.tokens] at hf; omega⟩
    rfl
  | array items ih =>
    intro fuel rest hf block indentless
    have hitems : ∃ f, fuel = f + 1 ∧
        parseFlowSequence handles f true (Value.itemsTokens items ++ rest) =
          some (ofItems items, rest) := by
      cases items with
      | nil =>
        obtain ⟨fuel, rfl⟩ : ∃ f, fuel = f + 2 :=
          ⟨fuel - 2, by simp [Value.tokens, Value.itemsTokens] at hf; omega⟩
        exact ⟨fuel + 1, rfl, rfl⟩
      | cons item items =>
        obtain ⟨hitem, hitems⟩ := List.forall_mem_cons.mp ih
        rw [Value.tokens, Value.itemsTokens, List.length_cons, List.length_append] at hf
        have hpos := tokens_length_pos item
        have hmore : 0 < (Value.moreItemsTokens items).length := by
          cases items <;> exact Nat.succ_pos _
        obtain ⟨fuel, rfl⟩ : ∃ f, fuel = f + 3 := ⟨fuel - 3, by omega⟩
        refine ⟨fuel + 2, rfl, ?_⟩
        rw [Value.itemsTokens, List.append_assoc, parseFlowSequence_first]
        exact parseFlowElement_eq (hitem (by omega) false false)
          (parse_moreItems hitems (by omega))
    obtain ⟨fuel, rfl, hitems⟩ := hitems
    rw [Value.tokens, List.cons_append]
    simp [parse, properties, hitems, ofValue]
  | object members ih =>
    intro fuel rest hf block indentless
    have hmembers : ∃ f, fuel = f + 1 ∧
        parseFlowMapping handles f true (Value.membersTokens members ++ rest) =
          some (ofMembers members, rest) := by
      cases members with
      | nil =>
        obtain ⟨fuel, rfl⟩ : ∃ f, fuel = f + 2 :=
          ⟨fuel - 2, by simp [Value.tokens, Value.membersTokens] at hf; omega⟩
        exact ⟨fuel + 1, rfl, rfl⟩
      | cons m members =>
        obtain ⟨name, v⟩ := m
        obtain ⟨hv, hmembers⟩ := List.forall_mem_cons.mp ih
        replace hv : Parses handles v := hv
        rw [Value.tokens, Value.membersTokens] at hf
        simp only [List.length_cons, List.length_append] at hf
        obtain ⟨fuel, rfl⟩ : ∃ f, fuel = f + 4 := ⟨fuel - 4, by omega⟩
        refine ⟨fuel + 3, rfl, ?_⟩
        rw [Value.membersTokens]
        simp only [List.cons_append, List.append_assoc]
        exact parseFlowEntry_eq (hv (by omega) false false) (parse_moreMembers hmembers (by omega))
    obtain ⟨fuel, rfl, hmembers⟩ := hmembers
    rw [Value.tokens, List.cons_append]
    simp [parse, properties, hmembers, ofValue]

/-- The tokens of a value on its own. -/
theorem ofTokens?_tokens (v : Value) : ofTokens? v.tokens = some (some (ofValue v)) := by
  have hfuel : 2 * v.tokens.length ≤ fuelFor v.tokens := by
    rw [fuelFor]
    omega
  have hparse : parse standardHandles (fuelFor v.tokens) true false (v.tokens ++ []) =
      some (ofValue v, []) := parses standardHandles v hfuel true false
  rw [List.append_nil] at hparse
  have hends : endsDocument v.tokens = false := by cases v <;> rfl
  unfold ofTokens?
  split
  · rename_i hnil
    exact absurd (tokens_length_pos v) (by rw [hnil]; exact Nat.lt_irrefl 0)
  · simp [hends, hparse]

end Node

/-! ## Numbered nodes -/

namespace Linked

mutual

/-- The numbered node of a value, which has nothing to number. -/
def ofValue : Value → Linked
  | .null => .scalar none "null" .plain
  | .bool b => .scalar none (if b then "true" else "false") .plain
  | .number n => .scalar none n.text .plain
  | .string s => .scalar none s .quoted
  | .array items => .sequence none (ofItems items)
  | .object members => .mapping none (ofMembers members)

def ofItems : List Value → List Linked
  | [] => []
  | item :: items => ofValue item :: ofItems items

def ofMembers : List (String × Value) → List (Linked × Linked)
  | [] => []
  | (name, value) :: members => (.scalar none name .quoted, ofValue value) :: ofMembers members

end

theorem ofItems_eq (items : List Value) : ofItems items = items.map ofValue := by
  induction items with
  | nil => rfl
  | cons item items ih => rw [ofItems, ih, List.map_cons]

theorem ofMembers_eq (members : List (String × Value)) :
    ofMembers members = members.map fun m => (.scalar none m.1 .quoted, ofValue m.2) := by
  induction members with
  | nil => rfl
  | cons m members ih => rw [ofMembers, ih, List.map_cons]

mutual

theorem ofNode?_ofValue (names : Names) : ∀ v : Value,
    ofNode? names (Node.ofValue v) = some (ofValue v, names, [])
  | .null | .bool _ | .number _ | .string _ => rfl
  | .array items => by
    rw [Node.ofValue, ofNode?]
    simp [start, ofNodes?_ofItems names items, defined, ofValue]
  | .object members => by
    rw [Node.ofValue, ofNode?]
    simp [start, ofEntries?_ofMembers names members, defined, ofValue]

theorem ofNodes?_ofItems (names : Names) : ∀ items : List Value,
    ofNodes? names (Node.ofItems items) = some (ofItems items, names, [])
  | [] => rfl
  | item :: items => by
    rw [Node.ofItems, ofNodes?, ofNode?_ofValue names item]
    simp [ofNodes?_ofItems names items, ofItems]

theorem ofEntries?_ofMembers (names : Names) : ∀ members : List (String × Value),
    ofEntries? names (Node.ofMembers members) = some (ofMembers members, names, [])
  | [] => rfl
  | (name, v) :: members => by
    have hname : ofNode? names (.scalar {} name .quoted) =
        some (.scalar none name .quoted, names, []) := rfl
    rw [Node.ofMembers, ofEntries?, hname]
    simp [ofNode?_ofValue names v, ofEntries?_ofMembers names members, ofMembers]

end

end Linked

end Dbml.Yaml
