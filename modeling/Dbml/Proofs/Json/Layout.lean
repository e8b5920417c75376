import Dbml.Json.Printer
import Dbml.Json.Tree

/-!
# Layouts of JSON text

The tokens of a value may have blanks between them. Without any the text is the compact form
(`Layout.compact_chars`), with lines and indentation the pretty form (`Layout.pretty_chars`).
-/

namespace Dbml.Json

/-- The blanks between the tokens of a text: before an item or a closing bracket, by the depth
of nesting, and after a colon. -/
structure Layout where
  line : Nat → List Char
  space : List Char
  line_blank : ∀ depth, ∀ c ∈ line depth, isBlank c = true
  space_blank : ∀ c ∈ space, isBlank c = true

namespace Layout

mutual

/-- The text of a value. Nothing stands inside of empty brackets. -/
def chars (l : Layout) (depth : Nat) : Value → List Char
  | .array [] => ['[', ']']
  | .array (item :: items) =>
    '[' :: (l.line (depth + 1) ++ (l.chars (depth + 1) item ++ l.itemsChars depth items))
  | .object [] => ['{', '}']
  | .object ((name, value) :: members) =>
    '{' :: (l.line (depth + 1) ++ (stringChars name ++ ':' ::
      (l.space ++ (l.chars (depth + 1) value ++ l.membersChars depth members))))
  | .null => ['n', 'u', 'l', 'l']
  | .bool true => ['t', 'r', 'u', 'e']
  | .bool false => ['f', 'a', 'l', 's', 'e']
  | .number n => n.text.toList
  | .string s => stringChars s

/-- Further items and the closing bracket. -/
def itemsChars (l : Layout) (depth : Nat) : List Value → List Char
  | [] => l.line depth ++ [']']
  | item :: items =>
    ',' :: (l.line (depth + 1) ++ (l.chars (depth + 1) item ++ l.itemsChars depth items))

/-- Further members and the closing brace. -/
def membersChars (l : Layout) (depth : Nat) : List (String × Value) → List Char
  | [] => l.line depth ++ ['}']
  | (name, value) :: members =>
    ',' :: (l.line (depth + 1) ++ (stringChars name ++ ':' ::
      (l.space ++ (l.chars (depth + 1) value ++ l.membersChars depth members))))

end

/-- No blanks. -/
def compact : Layout where
  line _ := []
  space := []
  line_blank := nofun
  space_blank := nofun

/-- A line for each item, and a blank after each colon. -/
def pretty : Layout where
  line := Value.newLine
  space := [' ']
  line_blank depth := by
    intro c hc
    rcases List.mem_cons.mp hc with rfl | hc
    · rfl
    · rw [(List.mem_replicate.mp hc).2]
      rfl
  space_blank := List.forall_mem_singleton.mpr rfl

mutual

theorem compact_chars (depth : Nat) : ∀ v : Value, compact.chars depth v = v.chars
  | .array [] | .object [] | .null | .bool true | .bool false | .number _ | .string _ => rfl
  | .array (item :: items) => by
    rw [chars, compact_chars, compact_itemsChars]
    rfl
  | .object ((name, value) :: members) => by
    rw [chars, compact_chars, compact_membersChars]
    rfl

theorem compact_itemsChars (depth : Nat) :
    ∀ items : List Value, compact.itemsChars depth items = Value.moreItemsChars items
  | [] => rfl
  | item :: items => by
    rw [itemsChars, compact_chars, compact_itemsChars]
    rfl

theorem compact_membersChars (depth : Nat) :
    ∀ members : List (String × Value),
      compact.membersChars depth members = Value.moreMembersChars members
  | [] => rfl
  | (name, value) :: members => by
    rw [membersChars, compact_chars, compact_membersChars]
    rfl

end

mutual

theorem pretty_chars (depth : Nat) : ∀ v : Value, pretty.chars depth v = v.prettyChars depth
  | .array [] | .object [] | .null | .bool true | .bool false | .number _ | .string _ => rfl
  | .array (item :: items) => by
    rw [chars, pretty_chars, pretty_itemsChars, Value.prettyChars, List.append_assoc]
    rfl
  | .object ((name, value) :: members) => by
    rw [chars, pretty_chars, pretty_membersChars, Value.prettyChars]
    simp [pretty]

theorem pretty_itemsChars (depth : Nat) :
    ∀ items : List Value, pretty.itemsChars depth items = Value.prettyItems depth items
  | [] => rfl
  | item :: items => by
    rw [itemsChars, pretty_chars, pretty_itemsChars, Value.prettyItems, List.append_assoc]
    rfl

theorem pretty_membersChars (depth : Nat) :
    ∀ members : List (String × Value),
      pretty.membersChars depth members = Value.prettyMembers depth members
  | [] => rfl
  | (name, value) :: members => by
    rw [membersChars, pretty_chars, pretty_membersChars, Value.prettyMembers]
    simp [pretty]

end

end Layout

end Dbml.Json
