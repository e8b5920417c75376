import Dbml.Yaml.Node

/-!
# Anchors

An alias stands for a node with an anchor of its name. Anchors are numbered in
the order of the text by how many names are known before them, an alias takes the
number that its name has there, and the last node of a number is what it stands
for (`Anchored.ofNode?`). A name may thus be used again. Aliases are followed
only where a node is read, since a node may contain an alias of itself.
-/

namespace Dbml.Yaml

/-- A tree whose aliases are numbers. -/
inductive Linked
  | scalar (tag : Option Tag) (text : String) (style : Style)
  | sequence (tag : Option Tag) (items : List Linked)
  | mapping (tag : Option Tag) (entries : List (Linked × Linked))
  | alias (number : Nat)
  deriving Inhabited

namespace Linked

/-- The number of parts of a tree; a collection has a start and an end. -/
def size : Linked → Nat
  | .scalar _ _ _ | .alias _ => 1
  | .sequence _ items => 2 + sizes items
  | .mapping _ entries => 2 + pairSizes entries
where
  sizes : List Linked → Nat
    | [] => 0
    | item :: items => item.size + sizes items
  pairSizes : List (Linked × Linked) → Nat
    | [] => 0
    | (key, value) :: entries => key.size + value.size + pairSizes entries

end Linked

/-- The numbers of the names that are known. -/
abbrev Names := List (String × Nat)

/-- Gives a name the next number. -/
def Names.define (names : Names) (name : String) : Names :=
  (name, names.length) :: names.filter (·.1 ≠ name)

/-- Nodes by their numbers, later ones after earlier ones. -/
abbrev Definitions := List (Nat × Linked)

namespace Linked

/-- The names after a node has started, and its number if it has an anchor. -/
def start (names : Names) (p : Properties) : Names × Option Nat :=
  match p.anchor with
  | some name => (names.define name, some names.length)
  | none => (names, none)

/-- The definition of a node itself, before those of its parts. -/
def defined (number : Option Nat) (node : Linked) (parts : Definitions) : Definitions :=
  match number with
  | some n => (n, node) :: parts
  | none => parts

mutual

/-- Numbers the aliases of a tree. -/
def ofNode? (names : Names) : Node → Option (Linked × Names × Definitions)
  | .scalar p text style =>
    let (names, number) := start names p
    let node := Linked.scalar p.tag text style
    some (node, names, defined number node [])
  | .sequence p items => do
    let (names, number) := start names p
    let (items, names, parts) ← ofNodes? names items
    let node := Linked.sequence p.tag items
    return (node, names, defined number node parts)
  | .mapping p entries => do
    let (names, number) := start names p
    let (entries, names, parts) ← ofEntries? names entries
    let node := Linked.mapping p.tag entries
    return (node, names, defined number node parts)
  | .alias name => do
    let number ← names.lookup name
    return (.alias number, names, [])

def ofNodes? (names : Names) : List Node → Option (List Linked × Names × Definitions)
  | [] => some ([], names, [])
  | node :: nodes => do
    let (first, names, parts) ← ofNode? names node
    let (rest, names, more) ← ofNodes? names nodes
    return (first :: rest, names, parts ++ more)

def ofEntries? (names : Names) :
    List (Node × Node) → Option (List (Linked × Linked) × Names × Definitions)
  | [] => some ([], names, [])
  | (key, value) :: entries => do
    let (key, names, keyParts) ← ofNode? names key
    let (value, names, valueParts) ← ofNode? names value
    let (rest, names, more) ← ofEntries? names entries
    return ((key, value) :: rest, names, keyParts ++ valueParts ++ more)

end

end Linked

/-- A document with what its aliases stand for. -/
structure Anchored where
  root : Linked
  definitions : Definitions

namespace Anchored

def ofNode? (node : Node) : Option Anchored :=
  (Linked.ofNode? [] node).map fun (root, _, definitions) => ⟨root, definitions⟩

/-- The last node with a number. -/
def lookup (d : Anchored) (number : Nat) : Option Linked := d.definitions.reverse.lookup number

end Anchored

end Dbml.Yaml
