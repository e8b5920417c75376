import Dbml.Data.Mismatch

/-!
# Places of a document

A reader of typed data works on places of a document, whatever its format: it
asks a place for a text, a list, the members of a record, and so on
(`Source`). What else reading takes, such as the faults that it may meet, is a
matter of the monad that the format reads in. The answers come in the order of
the document, and the reader stops at the first fault. A fault is placed where
the format places it: at the place that was asked, or, found only after the
place was read, at the one around it.
-/

namespace Dbml.Data

/-- The elements of a list, and whether the list ends well: after the last one
(`beyond`), and where no more than so many are wanted (`leftover`). -/
structure Items (σ : Type) (m : Type → Type) where
  elements : List σ
  beyond : m Unit
  leftover : Nat → m Unit

/-- The members of a record: by name, up to where they end, or by position. -/
inductive Members (σ : Type) (m : Type → Type)
  | named (members : List (m Datum × σ)) (ending : m Unit)
  | positional (items : Items σ m)

/-- What a place `σ` of a document gives to a reader, who reads in `m`. -/
class Source (σ : Type) (m : outParam (Type → Type)) where
  /-- Fails with a mismatch that has no place yet. -/
  fail {α : Type} : Mismatch → m α
  /-- Gives a fault of a result a place, if it has none. -/
  place {α : Type} : σ → m α → m α
  text : Expected → σ → m String
  bool : σ → m Bool
  /-- The place itself, unless it holds nothing. -/
  optional : σ → m (Option σ)
  items : σ → m (Items σ m)
  members : Expected → σ → m (Members σ m)
  /-- The members of a record that one of them, the tag of the given name, gives
  a type. -/
  taggedMembers : String → Expected → σ → m (Members σ m)
  /-- A name, recognised as soon as it is read. -/
  variant {α : Type} (recognise : String → Except Mismatch α) : σ → m α
  datum : σ → m Datum
  /-- Passes over a place. -/
  pass : σ → m Unit

variable {σ : Type} {m : Type → Type} [Monad m] [Source σ m] {α : Type}

/-- A mismatch of a result becomes a fault without a place. -/
def unplaced : Except Mismatch α → m α
  | .ok value => pure value
  | .error fault => Source.fail (σ := σ) fault

def readText (c : σ) : m String := Source.text .text c

def readPath (c : σ) : m String := Source.text .path c

def readBool (c : σ) : m Bool := Source.bool c

/-- Reads unless the place holds nothing. -/
def readOptional (read : σ → m α) (c : σ) : m (Option α) := do
  match ← Source.optional c with
  | none => return none
  | some c => some <$> read c

/-- Reads every element of a list. -/
def readList (read : σ → m α) (c : σ) : m (List α) := Source.place c do
  let items ← Source.items c
  let values ← items.elements.mapM read
  items.beyond
  return values

end Dbml.Data
