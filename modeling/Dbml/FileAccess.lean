import Dbml.Path

/-!
# Access to files

Programs reach files in whatever monad has the means for it. Reading and writing
are apart, so that the type of a program tells whether it may write.
-/

namespace Dbml

/-- Why an operation on a file fails. -/
inductive FileError
  | notFound
  | alreadyExists
  | notADirectory
  | isADirectory
  | notText
  /-- A name is longer than a directory can hold, or a path than can be walked. -/
  | nameTooLong
  /-- A zero octet is in a path. -/
  | zeroInName
  /-- Whatever else may fail, by its description. -/
  | other (description : String)
  deriving DecidableEq, Repr

namespace FileError

def message : FileError → String
  | .notFound => "No such file or directory (os error 2)"
  | .alreadyExists => "File exists (os error 17)"
  | .notADirectory => "Not a directory (os error 20)"
  | .isADirectory => "Is a directory (os error 21)"
  | .notText => "stream did not contain valid UTF-8"
  | .nameTooLong => "File name too long (os error 36)"
  | .zeroInName => "file name contained an unexpected NUL byte"
  | .other description => description

end FileError

class ReadsFiles (m : Type → Type) where
  /-- Whether a path leads to a file or directory. -/
  pathExists : Path → m Bool
  isDirectory : Path → m Bool
  /-- The text of a file. -/
  readText : Path → ExceptT FileError m String

class WritesFiles (m : Type → Type) extends ReadsFiles m where
  /-- Makes a text the whole of a file, which is made if it is missing. -/
  writeText : Path → String → ExceptT FileError m Unit
  /-- Makes a directory in one that is there. -/
  createDirectory : Path → ExceptT FileError m Unit

export ReadsFiles (pathExists isDirectory readText)
export WritesFiles (writeText createDirectory)

variable {m : Type → Type} [Monad m] [WritesFiles m]

/-- Makes a directory, unless it is there. -/
def ensureDirectory (p : Path) : ExceptT FileError m Unit :=
  tryCatch (createDirectory p) fun error => do
    unless ← isDirectory (m := m) p do throw error

/-- Makes the first of some directories, each of which lies in the next, and
those of the others that it misses. -/
def createDirectoriesOf : List Path → ExceptT FileError m Unit
  | [] => pure ()
  | p :: outer =>
    tryCatch (createDirectory p) fun error => do
      if error = .notFound then createDirectoriesOf outer
      ensureDirectory p

/-- Makes a directory and those that lead to it, as far as they are missing. -/
def createDirectories (p : Path) : ExceptT FileError m Unit :=
  createDirectoriesOf p.directories

end Dbml
