import Dbml.Data.Source

/-!
# Records

A record is read into a draft, in which every field is a slot that is filled at
most once (`Slot`). Members that no slot has a name for are passed over. A
record may also be written as the list of its fields in order, where fields that
need not be given may be left out at the end. What is missing is decided when
all members are read.
-/

namespace Dbml.Data

/-- A field of a record with drafts `δ`. -/
structure Slot (σ : Type) (m : Type → Type) (δ : Type) where
  name : String
  /-- Whether a record written as a list has to go as far as this field. -/
  required : Bool
  filled : δ → Bool
  fill : δ → σ → m δ

variable {σ : Type} {m : Type → Type} [Monad m] {δ α : Type}

/-- The slot that is read and written by `get` and `set`. -/
def Slot.ofLens (name : String) (required : Bool) (get : δ → Option α) (set : δ → α → δ)
    (read : σ → m α) : Slot σ m δ where
  name := name
  required := required
  filled draft := (get draft).isSome
  fill draft c := set draft <$> read c

/-- The value of a field that has to be given. -/
def required (name : String) : Option α → Except Mismatch α
  | some value => .ok value
  | none => .error (.missingField name)

/-- The slot that a key stands for: by its name or, where keys are untyped, by
its position. -/
def slotOf (slots : List (Slot σ m δ)) : Datum → Except Mismatch (Option (Slot σ m δ))
  | .text name => .ok (slots.find? (·.name == name))
  | .number (.integer (.ofNat index)) => .ok slots[index]?
  | key => .error (.wrongType key.found .fieldName)

variable [Source σ m]

/-- Reads one member into the draft. -/
def readMember (slots : List (Slot σ m δ)) (draft : δ) (member : m Datum × σ) : m δ := do
  let key ← member.1
  match ← unplaced (σ := σ) (slotOf slots key) with
  | none =>
    Source.pass member.2
    return draft
  | some slot =>
    if slot.filled draft then Source.fail (σ := σ) (.duplicateField slot.name)
    else slot.fill draft member.2

/-- Reads fields by position; `index` counts those before. -/
def readPositional (expected : Expected) (arity : Nat) (beyond : m Unit) :
    List (Slot σ m δ) → Nat → List σ → δ → m δ
  | [], _, _, draft => return draft
  | slot :: slots, index, c :: cs, draft => do
    let draft ← slot.fill draft c
    readPositional expected arity beyond slots (index + 1) cs draft
  | slot :: slots, index, [], draft => do
    beyond
    if slot.required then Source.fail (σ := σ) (.tooShort index expected arity)
    else readPositional expected arity beyond slots (index + 1) [] draft

/-- Reads members into a draft. -/
def readMembers (expected : Expected) (slots : List (Slot σ m δ)) (draft : δ) :
    Members σ m → m δ
  | .named members ending => do
    let draft ← members.foldlM (readMember slots) draft
    ending
    return draft
  | .positional items => do
    let draft ← readPositional expected slots.length items.beyond slots 0 items.elements draft
    items.leftover slots.length
    return draft

/-- Reads a record: its members into a draft, and the record from this. -/
def readRecord (name : String) (slots : List (Slot σ m δ)) (draft : δ)
    (finish : δ → Except Mismatch α) (c : σ) : m α := Source.place c do
  let members ← Source.members (.record name) c
  let draft ← readMembers (.record name) slots draft members
  unplaced (σ := σ) (finish draft)

end Dbml.Data
