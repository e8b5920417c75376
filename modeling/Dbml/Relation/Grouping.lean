import Dbml.Relation.Endpoint

/-!
# Groups of ends

The ends of relations are placed into groups one after another
(`Grouping.place`). An index knows the group of every key met so far. An end
with a new key starts a group, which takes its name from it; any other end
goes to the group of its key, after those that are there.
-/

namespace Dbml

/-- Ends that belong together, in order. -/
structure RelationGroup where
  name : String
  /-- Whether that is another name than the default one. -/
  explicit : Bool
  ends : List Endpoint
  deriving Repr

namespace RelationGroup

/-- The group that an end starts. -/
def start (e : Endpoint) : RelationGroup :=
  { name := e.relationName, explicit := e.isExplicit, ends := [e] }

def add (g : RelationGroup) (e : Endpoint) : RelationGroup := { g with ends := g.ends ++ [e] }

end RelationGroup

/-- The groups in the order of their first ends, and the place of the group of
each key. -/
structure Grouping where
  groups : List RelationGroup := []
  index : List (RelationKey × Nat) := []
  deriving Repr

namespace Grouping

/-- Places an end. -/
def place (g : Grouping) (e : Endpoint) : Grouping :=
  match g.index.lookup e.key with
  | some i => { g with groups := g.groups.modify i (·.add e) }
  | none =>
    { groups := g.groups ++ [.start e], index := (e.key, g.groups.length) :: g.index }

/-- Places ends in order. -/
def ofEnds (ends : List Endpoint) : Grouping := ends.foldl place {}

end Grouping

end Dbml
