import ByteMachine.Byte
import ByteMachine.Text.Split

namespace ByteMachine.CommandLine

/-! Files as a command sees them from its working directory. -/

inductive FileError where
  | notFound
  | notDirectory
  | isDirectory
  | nameTooLong
  | notText
  | other (text : String)
  deriving DecidableEq, Repr

def FileError.message : FileError → String
  | notFound => "No such file or directory (os error 2)"
  | notDirectory => "Not a directory (os error 20)"
  | isDirectory => "Is a directory (os error 21)"
  | nameTooLong => "File name too long (os error 36)"
  | notText => "stream did not contain valid UTF-8"
  | other text => text

/-- The names on the way from the working directory to a file. Only at the front there may
be `..`, once for each folder further up, or `/`, the root. -/
abbrev Path := List String

namespace Path

def isAbove (path : Path) : Bool :=
  path.all (· == "..")

/-- The folder that a folder lies in. The root lies in itself. -/
def parent (path : Path) : Path :=
  if path.isAbove then path ++ [".."]
  else if path = ["/"] then path
  else path.dropLast

def enter (path : Path) (name : String) : Path :=
  if name = "." then path
  else if name = ".." then path.parent
  else path ++ [name]

end Path

inductive Entry where
  | file (content : List Byte)
  | folder
  deriving DecidableEq, Repr

structure Directory where
  entries : List (Path × Entry)
  deriving DecidableEq, Repr

/-- A path as it is written: where it starts, its names, and whether a slash ends it. -/
structure Route where
  start : Path
  names : List String
  slash : Bool
  deriving DecidableEq, Repr

namespace Route

def sizeLimit : Nat := 4095

def nameLimit : Nat := 255

def ofChars (chars : List Char) : Route where
  start := if chars.head? = some '/' then ["/"] else []
  names := (Text.fields (· == '/') chars).map String.ofList
  slash := chars.getLast? = some '/'

def ofText (text : String) : Except FileError Route :=
  if text.isEmpty then .error .notFound
  else if text.utf8ByteSize ≤ sizeLimit then .ok (ofChars text.toList)
  else .error .nameTooLong

end Route

/-- What a route leads to: a folder that it names by dots or by the root alone, or a name
in a folder. -/
inductive Target where
  | folder
  | name (path : Path) (name : String) (slash : Bool)
  deriving DecidableEq, Repr

namespace Directory

/-- Entries by their names, which are relative to the working directory. -/
def ofFiles (files : List (String × Entry)) : Directory where
  entries := files.map fun (name, entry) => ((Route.ofChars name.toList).names, entry)

/-- What is at a path. The working directory, the folders above it and the root are folders,
and so is whatever holds an entry. -/
def entry? (directory : Directory) (path : Path) : Option Entry :=
  if path.isAbove || path = ["/"] then some .folder
  else
    match directory.entries.lookup path with
    | some entry => some entry
    | none =>
        if directory.entries.any fun (other, _) => path.isPrefixOf other then some .folder
        else none

def find? (directory : Directory) (path : Path) (name : String) :
    Except FileError (Option Entry) :=
  if name.utf8ByteSize ≤ Route.nameLimit then .ok (directory.entry? (path.enter name))
  else .error .nameTooLong

def follow (directory : Directory) (path : Path) (name : String) : Except FileError Path := do
  match ← directory.find? path name with
  | some .folder => return path.enter name
  | some (.file _) => throw .notDirectory
  | none => throw .notFound

def resolve (directory : Directory) (text : String) : Except FileError Target := do
  let route ← Route.ofText text
  match route.names.getLast? with
  | none => return .folder
  | some last =>
      let path ← route.names.dropLast.foldlM directory.follow route.start
      if last = "." ∨ last = ".." then return .folder
      else return .name path last route.slash

/-- The content of a file. A slash may only end the path of a folder. -/
def read (directory : Directory) (text : String) : Except FileError (List Byte) := do
  match ← directory.resolve text with
  | .folder => throw .isDirectory
  | .name path name slash =>
      match ← directory.find? path name with
      | some (.file content) => if slash then throw .notDirectory else return content
      | some .folder => throw .isDirectory
      | none => throw .notFound

/-- Puts an entry in the place of the one at its path, or behind all others. -/
def replace (path : Path) (entry : Entry) :
    List (Path × Entry) → List (Path × Entry)
  | [] => [(path, entry)]
  | (other, present) :: entries =>
      if other = path then (path, entry) :: entries
      else (other, present) :: replace path entry entries

/-- Creates a file or replaces its content. A path that a slash ends can only be meant for a
folder, whether it exists or not. -/
def write (directory : Directory) (text : String) (content : List Byte) :
    Except FileError Directory := do
  match ← directory.resolve text with
  | .folder => throw .isDirectory
  | .name path name slash =>
      if slash then throw .isDirectory
      else
        match ← directory.find? path name with
        | some .folder => throw .isDirectory
        | _ =>
            return { entries := replace (path.enter name) (.file content) directory.entries }

def file? (directory : Directory) (name : String) : Option (List Byte) :=
  match directory.entry? [name] with
  | some (.file content) => some content
  | _ => none

def files (directory : Directory) : List (String × List Byte) :=
  directory.entries.filterMap fun
    | ([name], .file content) => some (name, content)
    | _ => none

/-- The files directly in a directory that another one has not, or has otherwise. -/
def changes (before after : Directory) : List (String × List Byte) :=
  after.files.filter fun (name, content) => before.file? name != some content

end Directory

end ByteMachine.CommandLine
