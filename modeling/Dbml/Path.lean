/-!
# Paths

A path is a text in which slashes part the components. Its components are what
it is about: repeated slashes and the component `.` say nothing, except that a
leading `.` is kept (`Path.components`). Joining is a matter of text: an
absolute path replaces what it is joined to (`Path.join`). Who walks a path
takes a step for each part between slashes (`Path.steps`), and may have to make
the directories on the way (`Path.directories`).
-/

namespace Dbml

structure Path where
  text : String
  deriving DecidableEq, Repr, Inhabited

inductive Component
  | root
  | here
  | up
  | normal (name : List Char)
  deriving DecidableEq, Repr

namespace Path

/-- Cuts a text at each slash. -/
def splitSlashes : List Char → List (List Char)
  | [] => [[]]
  | c :: cs =>
    if c = '/' then [] :: splitSlashes cs
    else match splitSlashes cs with
      | [] => [[c]]
      | part :: parts => (c :: part) :: parts

def parts (p : Path) : List (List Char) := splitSlashes p.text.toList

def isAbsolute (p : Path) : Bool := p.text.toList.head? == some '/'

/-- The component that a part between slashes is, if it is one after another
component. -/
def innerComponent? (part : List Char) : Option Component :=
  if part = [] ∨ part = ['.'] then none
  else if part = ['.', '.'] then some .up
  else some (.normal part)

def components (p : Path) : List Component :=
  match p.parts with
  | [] => []
  | first :: parts =>
    let leading :=
      if p.isAbsolute then [.root]
      else if first = ['.'] then [.here]
      else (innerComponent? first).toList
    leading ++ parts.filterMap innerComponent?

/-- The name of the last component, if it is a normal one. -/
def fileName? (p : Path) : Option (List Char) :=
  match p.components.getLast? with
  | some (.normal name) => some name
  | _ => none

/-- What follows the last point of a name, unless that starts the name. -/
def extensionOf (name : List Char) : Option (List Char) :=
  if name.contains '.' then
    let after := (name.reverse.takeWhile (· ≠ '.')).reverse
    if after.length + 1 = name.length then none else some after
  else none

/-- The extension of the file name. -/
def extension? (p : Path) : Option String :=
  (p.fileName?.bind extensionOf).map String.ofList

/-- The path `q`, taken from `p` unless it is absolute. -/
def join (p q : Path) : Path :=
  if q.isAbsolute then q
  else if p.text.isEmpty ∨ p.text.toList.getLast? = some '/' then ⟨p.text ++ q.text⟩
  else ⟨p.text ++ "/" ++ q.text⟩

/-- The step that a part between slashes asks for. -/
def stepOf (part : List Char) : Component :=
  if part = [] ∨ part = ['.'] then .here
  else if part = ['.', '.'] then .up
  else .normal part

def steps (p : Path) : List Component := p.parts.map stepOf

def endsInSlash (p : Path) : Bool := p.text.toList.getLast? == some '/'

/-- Whether a zero octet, which ends a path for the system, is among its own. -/
def holdsZero (p : Path) : Bool := p.text.toList.contains '\x00'

/-- The steps to the directory that a path names something in, and the step that
names it, which a slash may follow. -/
def lastStep (p : Path) : List Component × Component :=
  match p.parts.reverse.dropWhile (·.isEmpty) with
  | [] => ([], .here)
  | part :: outer => (outer.reverse.map stepOf, stepOf part)

end Path

namespace Component

def text : Component → List Char
  | .root => []
  | .here => ['.']
  | .up => ['.', '.']
  | .normal name => name

end Component

namespace Path

def ofComponents (components : List Component) : Path :=
  ⟨String.ofList (['/'].intercalate (components.map (·.text)))⟩

/-- The paths to the directories on the way to a path, the nearest first, of
which the components are given in the same order. -/
def directoriesTo : List Component → List Path
  | [] => []
  | component :: outer =>
    if component = .root then []
    else ofComponents (component :: outer).reverse :: directoriesTo outer

/-- The directories that have to be there for a path to be one, itself first. -/
def directories (p : Path) : List Path :=
  match p.components.reverse with
  | [] => []
  | component :: outer => if component = .root then [] else p :: directoriesTo outer

end Path

end Dbml
