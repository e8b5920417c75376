import Dbml.Program

/-!
# Command line

The programs run on the files of the system. Which of the two runs is told by
the name that it is called by.
-/

namespace Dbml

/-- The number of an error, which some operations report as its negative. -/
def systemNumber (code : UInt32) : UInt32 := min code (0 - code)

/-- The error of a file as the system reports it. -/
def FileError.ofSystem : IO.Error → FileError
  | .noFileOrDirectory _ _ _ => .notFound
  | .alreadyExists _ _ _ => .alreadyExists
  | .inappropriateType file code details =>
    match systemNumber code with
    | 20 => .notADirectory
    | 21 => .isADirectory
    | _ => .other (toString (IO.Error.inappropriateType file code details))
  | .invalidArgument file code details =>
    match systemNumber code with
    | 36 => .nameTooLong
    | _ => .other (toString (IO.Error.invalidArgument file code details))
  | error => .other (toString error)

/-- An operation of the system on the file that a path leads to. -/
def onFile {α : Type} (p : Path) (action : String → IO α) : ExceptT FileError IO α := do
  if p.holdsZero then throw .zeroInName
  ExceptT.mk (Except.mapError FileError.ofSystem <$> (action p.text).toBaseIO)

/-- Whether the system can tell where a path leads. -/
def resolves (p : Path) : IO Bool :=
  Except.toBool <$> (onFile p fun text => IO.FS.realPath text).run

instance : ReadsFiles IO where
  pathExists p := resolves p
  isDirectory p := if p.text.isEmpty then return false else resolves ⟨p.text ++ "/."⟩
  readText p := do
    match String.fromUTF8? (← onFile p fun text => IO.FS.readBinFile text) with
    | some text => return text
    | none => throw .notText

instance : WritesFiles IO where
  writeText p text := onFile p fun file => IO.FS.writeFile file text
  createDirectory p := onFile p fun text => IO.FS.createDir text

end Dbml

open Dbml in
def main (words : List String) : IO UInt32 := do
  let calledBy := Path.fileName? ⟨toString (← IO.appPath)⟩
  let outcome : Outcome ←
    if calledBy = some "dbmlgen-schema-gen".toList then JsonSchema.program words
    else Command.program words
  IO.print outcome.output
  IO.eprint outcome.errors
  return outcome.code
