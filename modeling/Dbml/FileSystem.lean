import Dbml.FileAccess

/-!
# File systems

A file system has entries at locations, and a directory that relative paths
start from. Its entries form a tree, each in a directory. It knows no links, so
that a location is the names that lead from the root to an entry, and a path is
walked name by name: what is walked through has to be a directory, and neither a
name nor the path may be too long (`checkPath`, `lookUp`). `FileSystem.at?` is
all that can be seen of it, and `FileSystem.set` all that can be done to it.
-/

namespace Dbml

/-- The names that lead from an entry back to the root. -/
abbrev Location := List (List Char)

/-- What is in a file: a text, or bytes that are not one. -/
inductive Content
  | text (text : String)
  | binary (bytes : List UInt8) (not_text : ¬ (ByteArray.mk bytes.toArray).IsValidUTF8)
  deriving DecidableEq

namespace Content

def ofBytes (bytes : List UInt8) : Content :=
  if h : (ByteArray.mk bytes.toArray).IsValidUTF8 then .text (String.ofByteArray _ h)
  else .binary bytes h

end Content

inductive Entry
  | directory
  | file (content : Content)
  deriving DecidableEq

/-- The entry at a location. The root is a directory. -/
def entryAt? (entries : List (Location × Entry)) (location : Location) : Option Entry :=
  if location = [] then some .directory else entries.lookup location

/-- Whether every entry lies in a directory. -/
def IsTree (entries : List (Location × Entry)) : Prop :=
  ∀ x ∈ entries, entryAt? entries x.1.tail = some .directory

instance (entries : List (Location × Entry)) : Decidable (IsTree entries) :=
  inferInstanceAs (Decidable (∀ x ∈ entries, _))

@[ext]
structure FileSystem where
  /-- The entries below the root. -/
  entries : List (Location × Entry)
  current : Location
  tree : IsTree entries := by decide
  deriving DecidableEq

namespace FileSystem

def at? (fs : FileSystem) (location : Location) : Option Entry := entryAt? fs.entries location

/-- Whether an entry may be put at a location: into a directory, and in place of
no other directory. -/
structure CanHold (fs : FileSystem) (location : Location) (entry : Entry) : Prop where
  ne_nil : location ≠ []
  parent : fs.at? location.tail = some .directory
  keeps : fs.at? location = some .directory → entry = .directory

instance (fs : FileSystem) (location : Location) (entry : Entry) :
    Decidable (fs.CanHold location entry) :=
  decidable_of_iff (location ≠ [] ∧ fs.at? location.tail = some .directory ∧
      (fs.at? location = some .directory → entry = .directory))
    ⟨fun ⟨hne, hparent, hkeeps⟩ => ⟨hne, hparent, hkeeps⟩, fun h => ⟨h.ne_nil, h.parent, h.keeps⟩⟩

def setIn (location : Location) (entry : Entry) :
    List (Location × Entry) → List (Location × Entry)
  | [] => [(location, entry)]
  | (l, e) :: rest =>
    if l = location then (l, entry) :: rest else (l, e) :: setIn location entry rest

theorem lookup_setIn (l : Location) (e : Entry) (entries : List (Location × Entry))
    (l' : Location) :
    (setIn l e entries).lookup l' = if l' = l then some e else entries.lookup l' := by
  induction entries with
  | nil =>
    by_cases h : l' = l
    · simp [setIn, h]
    · simp [setIn, h, List.lookup_cons, beq_false_of_ne h]
  | cons x entries ih =>
    obtain ⟨k, e'⟩ := x
    by_cases hk : k = l
    · subst hk
      by_cases h : l' = k
      · simp [setIn, h]
      · simp [setIn, h, List.lookup_cons, beq_false_of_ne h]
    · rw [setIn, if_neg hk, List.lookup_cons, List.lookup_cons, ih]
      by_cases h : l' = k
      · subst h
        simp [hk]
      · simp [beq_false_of_ne h]

theorem entryAt?_setIn {l : Location} (hl : l ≠ []) (e : Entry)
    (entries : List (Location × Entry)) (l' : Location) :
    entryAt? (setIn l e entries) l' = if l' = l then some e else entryAt? entries l' := by
  by_cases h : l' = []
  · subst h
    rw [entryAt?, if_pos rfl, if_neg (Ne.symm hl), entryAt?, if_pos rfl]
  · rw [entryAt?, if_neg h, entryAt?, if_neg h]
    exact lookup_setIn l e entries l'

theorem mem_setIn {l : Location} {e : Entry} {entries : List (Location × Entry)}
    {x : Location × Entry} (h : x ∈ setIn l e entries) : x = (l, e) ∨ x ∈ entries := by
  induction entries with
  | nil => exact .inl (List.mem_singleton.mp h)
  | cons y entries ih =>
    obtain ⟨k, e'⟩ := y
    rw [setIn] at h
    split at h
    · rename_i hk
      rcases List.mem_cons.mp h with rfl | h
      · exact .inl (by rw [hk])
      · exact .inr (List.mem_cons_of_mem _ h)
    · rcases List.mem_cons.mp h with rfl | h
      · exact .inr List.mem_cons_self
      · exact (ih h).imp_right (List.mem_cons_of_mem _)

/-- What is put into a directory leaves a tree, unless it takes the place of a directory in which
there may be entries. -/
theorem CanHold.isTree {fs : FileSystem} {l : Location} {e : Entry} (h : fs.CanHold l e) :
    IsTree (setIn l e fs.entries) := by
  intro x hx
  have hparent : fs.at? x.1.tail = some .directory := by
    rcases mem_setIn hx with rfl | hx
    · exact h.parent
    · exact fs.tree x hx
  rw [entryAt?_setIn h.ne_nil]
  split
  · rename_i heq
    rw [h.keeps (heq ▸ hparent)]
  · exact hparent

/-- Puts an entry at a location that can hold it. -/
def set (fs : FileSystem) (location : Location) (entry : Entry) : FileSystem :=
  if h : fs.CanHold location entry then
    { fs with entries := setIn location entry fs.entries, tree := h.isTree }
  else fs

/-! ## Walking a path -/

/-- The length in octets from which on a path is too long to be walked. -/
def pathLimit : Nat := 4096

/-- The length in octets of the longest name that a directory can hold. -/
def longestName : Nat := 255

/-- What a path has to be like for a walk to start. -/
def checkPath (p : Path) : Except FileError Unit :=
  if p.holdsZero then .error .zeroInName
  else if p.text = "" then .error .notFound
  else if pathLimit ≤ p.text.utf8ByteSize then .error .nameTooLong
  else .ok ()

/-- The entry of a name in a directory, unless the name is too long to be looked up. -/
def lookUp (fs : FileSystem) (location : Location) (name : List Char) :
    Except FileError (Option Entry) :=
  if longestName < (String.ofList name).utf8ByteSize then .error .nameTooLong
  else .ok (fs.at? (name :: location))

def start (fs : FileSystem) (p : Path) : Location := if p.isAbsolute then [] else fs.current

/-- The entry at a location, which has to be a directory. -/
def requireDirectory (fs : FileSystem) (location : Location) : Except FileError Unit :=
  match fs.at? location with
  | some .directory => .ok ()
  | some (.file _) => .error .notADirectory
  | none => .error .notFound

def step (fs : FileSystem) (location : Location) (component : Component) :
    Except FileError Location := do
  fs.requireDirectory location
  match component with
  | .root => return []
  | .here => return location
  | .up => return location.tail
  | .normal name =>
    match ← fs.lookUp location name with
    | some _ => return name :: location
    | none => throw .notFound

/-- Where a path leads. -/
def locate (fs : FileSystem) (p : Path) : Except FileError Location := do
  checkPath p
  p.steps.foldlM fs.step (fs.start p)

/-- The entry that a path leads to. -/
def find (fs : FileSystem) (p : Path) : Except FileError Entry := do
  match fs.at? (← fs.locate p) with
  | some entry => return entry
  | none => throw .notFound

/-- The directory in which a path names something, and the step that names it. -/
def locateLast (fs : FileSystem) (p : Path) : Except FileError (Location × Component) := do
  checkPath p
  let (outer, last) := p.lastStep
  let location ← outer.foldlM fs.step (fs.start p)
  fs.requireDirectory location
  return (location, last)

/-! ## Operations -/

def pathExists (fs : FileSystem) (p : Path) : Bool := (fs.find p).toBool

def isDirectory (fs : FileSystem) (p : Path) : Bool := fs.find p matches .ok .directory

def readText (fs : FileSystem) (p : Path) : Except FileError String := do
  match ← fs.find p with
  | .directory => throw .isADirectory
  | .file (.binary _ _) => throw .notText
  | .file (.text text) => return text

/-- Where a path has a file written. -/
def locateFile (fs : FileSystem) (p : Path) : Except FileError Location := do
  match ← fs.locateLast p with
  | (location, .normal name) =>
    if p.endsInSlash then throw .isADirectory
    if (← fs.lookUp location name) = some .directory then throw .isADirectory
    return name :: location
  | _ => throw .isADirectory

/-- Writes a file as a whole or not at all: a file that was there keeps what it holds if
writing fails. -/
def write (fs : FileSystem) (p : Path) (content : Content) : Except FileError FileSystem := do
  return fs.set (← fs.locateFile p) (.file content)

def createDirectory (fs : FileSystem) (p : Path) : Except FileError FileSystem := do
  match ← fs.locateLast p with
  | (location, .normal name) =>
    if (← fs.lookUp location name).isSome then throw .alreadyExists
    return fs.set (name :: location) .directory
  | _ => throw .alreadyExists

/-! ## Access -/

/-- What a program does with the file system that it finds. -/
abbrev Action := StateM FileSystem

/-- Changes the file system, unless that fails. -/
def change (f : FileSystem → Except FileError FileSystem) : ExceptT FileError Action Unit :=
  ExceptT.mk fun fs => match f fs with
    | .ok fs => (.ok (), fs)
    | .error error => (.error error, fs)

instance : ReadsFiles Action where
  pathExists p := fun fs => (fs.pathExists p, fs)
  isDirectory p := fun fs => (fs.isDirectory p, fs)
  readText p := ExceptT.mk fun fs => (fs.readText p, fs)

instance : WritesFiles Action where
  writeText p text := change (·.write p (.text text))
  createDirectory p := change (·.createDirectory p)

end FileSystem

end Dbml
