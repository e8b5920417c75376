import Dbml.Data.Untyped

/-!
# Column defaults

A default is a literal, a member of an enumeration, or an expression that the
database computes, given by a name and JSON arguments. In a document it is a
record with a tag, `kind`, which may stand anywhere among the members; a default
of an unknown kind is kept as unsupported. Since the tag decides what the other
members are, they are first read as untyped data.
-/

namespace Dbml

open Data (Datum Expected Members Mismatch Slot Source)
open Json (Number Value)

inductive ColumnDefault
  | string (value : String)
  | number (value : Number)
  | boolean (value : Bool)
  | member (value : String)
  | generated (name : String) (args : List Value)
  | unsupported
  deriving Repr

namespace ColumnDefault

def typeName : String := "DefaultValue"

def tagName : String := "kind"

/-- Numbers the rows. -/
def isAutoincrement : ColumnDefault → Bool
  | .generated name _ => name = "autoincrement"
  | _ => false

def isGenerated : ColumnDefault → Bool
  | .generated _ _ => true
  | _ => false

/-- The members in a document. -/
def toMembers : ColumnDefault → List (String × Value)
  | .string value => [(tagName, .string "string"), ("value", .string value)]
  | .number value => [(tagName, .string "number"), ("value", .number value)]
  | .boolean value => [(tagName, .string "boolean"), ("value", .bool value)]
  | .member value => [(tagName, .string "enum"), ("value", .string value)]
  | .generated name args =>
    [(tagName, .string "generated"), ("name", .string name)] ++
      if args.isEmpty then [] else [("args", .array args)]
  | .unsupported => [(tagName, .string "unsupported")]

def toValue (d : ColumnDefault) : Value := .object d.toMembers

/-- The kinds that have members besides the tag. -/
inductive Kind
  | string
  | number
  | boolean
  | member
  | generated
  | other

def Kind.ofName : String → Kind
  | "string" => .string
  | "number" => .number
  | "boolean" => .boolean
  | "enum" => .member
  | "generated" => .generated
  | _ => .other

/-- Reads a default that has one member, its value. -/
def readSingle {α : Type} (name : String) (read : Datum → Except Mismatch α) (body : Datum) :
    Except Mismatch α := do
  let expected := Expected.variantRecord typeName name
  let slots := [Slot.ofLens "value" true id (fun _ value => some value) read]
  let members ← Source.members expected body
  Data.readMembers expected slots none members >>= Data.required "value"

/-- What is known of an expression while it is read. -/
structure GeneratedDraft where
  name : Option String := none
  args : Option (List Value) := none

def generatedSlots : List (Slot Datum (Except Mismatch) GeneratedDraft) :=
  [.ofLens "name" true (·.name) (fun d name => { d with name := some name }) Data.readText,
   .ofLens "args" false (·.args) (fun d args => { d with args := some args })
    (Data.readList Datum.readValue)]

def readGenerated (body : Datum) : Except Mismatch ColumnDefault := do
  let expected := Expected.variantRecord typeName "Generated"
  let members ← Source.members expected body
  let draft ← Data.readMembers expected generatedSlots {} members
  let name ← Data.required "name" draft.name
  return .generated name (draft.args.getD [])

/-- A kind without members: a list of data has to be empty. -/
def readNothing : Datum → Except Mismatch Unit
  | .sequence data => (Datum.itemsOf data).leftover 0
  | _ => .ok ()

/-- Reads the members besides the tag. -/
def readBody : Kind → Datum → Except Mismatch ColumnDefault
  | .string, body => .string <$> readSingle "String" Data.readText body
  | .number, body => .number <$> readSingle "Number" Datum.readNumber body
  | .boolean, body => .boolean <$> readSingle "Boolean" Data.readBool body
  | .member, body => .member <$> readSingle "Enum" Data.readText body
  | .generated, body => readGenerated body
  | .other, body => do
    readNothing body
    return .unsupported

/-- The tag and the members before and after it, while they are read. -/
structure Tagged where
  kind : Option Kind := none
  entries : List (Datum × Datum) := []

variable {σ : Type} {m : Type → Type} [Monad m] [Source σ m]

def readKind (c : σ) : m Kind := Kind.ofName <$> Source.text .variantName c

/-- Reads one member: the tag, once, or an untyped entry. -/
def readTagged (tagged : Tagged) (member : m Datum × σ) : m Tagged := do
  match ← member.1 with
  | .text name =>
    if name = tagName then
      if tagged.kind.isSome then Source.fail (σ := σ) (.duplicateField tagName)
      else
        let kind ← readKind member.2
        return { tagged with kind := some kind }
    else readEntry (.text name)
  | key => readEntry key
where
  /-- Reads the value of an untyped entry. -/
  readEntry (key : Datum) : m Tagged := do
    let value ← Source.datum member.2
    return { tagged with entries := tagged.entries ++ [(key, value)] }

/-- Takes members apart into the kind and the untyped rest. -/
def readMembers : Members σ m → m (Kind × Datum)
  | .named members ending => do
    let tagged ← members.foldlM readTagged {}
    ending
    let kind ← Data.unplaced (σ := σ) (Data.required tagName tagged.kind)
    return (kind, .map tagged.entries)
  | .positional items => do
    match items.elements with
    | [] =>
      items.beyond
      Source.fail (σ := σ) (.missingField tagName)
    | first :: rest =>
      let kind ← readKind first
      let data ← rest.mapM Source.datum
      items.beyond
      return (kind, .sequence data)

/-- Reads a default. Faults found after the tag is known have no place here. -/
def read (c : σ) : m ColumnDefault := do
  let (kind, body) ← Source.place c do
    let members ← Source.taggedMembers tagName (.taggedRecord typeName) c
    readMembers members
  Data.unplaced (σ := σ) (readBody kind body)

end ColumnDefault

end Dbml
