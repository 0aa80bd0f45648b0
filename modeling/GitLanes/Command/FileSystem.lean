import GitLanes.Text.Quoted
import GitLanes.Number.Numeral

namespace GitLanes

/-!
# Files and directories

A file system is a set of directories and files below a root, one directory of
which is the current one. A path is followed one name at a time: each name must
be looked up in a directory that exists, so a path through a file or a missing
directory fails even if later names lead out of it again.
-/

/-- What a path can lead to. -/
inductive FileEntry
  | directory
  | file (contents : List UInt8)
  deriving Repr, DecidableEq

/-- The reason why a file cannot be read or written. -/
inductive FileFault
  | notFound
  | notDirectory
  | isDirectory
  | nameTooLong
  /-- A reason that only real devices have. -/
  | other (code : Nat) (description : String)
  deriving Repr, DecidableEq

namespace FileFault

/-- The number of a fault. -/
def code : FileFault → Nat
  | .notFound => 2
  | .notDirectory => 20
  | .isDirectory => 21
  | .nameTooLong => 36
  | .other code _ => code

/-- The description of a fault. -/
def description : FileFault → String
  | .notFound => "No such file or directory"
  | .notDirectory => "Not a directory"
  | .isDirectory => "Is a directory"
  | .nameTooLong => "File name too long"
  | .other _ description => description

/-- The fault of a number that a device gave, with its own description. -/
def ofCode (code : Nat) (description : String) : FileFault :=
  match code with
  | 2 => .notFound
  | 20 => .notDirectory
  | 21 => .isDirectory
  | 36 => .nameTooLong
  | code => .other code description

/-- The wording of a fault at a path. -/
def message (fault : FileFault) (path : String) : String :=
  "[Errno " ++ integerText fault.code ++ "] " ++ fault.description ++
    ": " ++ quotedText path.toList

end FileFault

/-- A place in a file system: the names that lead to it from the root. -/
abbrev Place := List String

/-- Directories and files, and the directory that relative paths start from. -/
structure FileSystem where
  entries : List (Place × FileEntry)
  current : Place
  deriving Repr, DecidableEq

/-- The names on a path; repeated slashes count as one. -/
def pathNames (path : String) : List String :=
  ((path.toList.splitOn '/').filter fun name => !name.isEmpty).map String.ofList

/-- Whether a path ends with a slash, and so must lead to a directory. -/
def endsWithSlash (path : String) : Bool :=
  path.toList.getLast? == some '/'

/-- Whether a name has more bytes than a directory can hold. -/
def isNameTooLong (name : String) : Bool :=
  decide (255 < name.utf8ByteSize)

/--
Why a path cannot be followed at all, if it is empty or has too many bytes.

A path never holds the character U+0000. No argument of a command can hold it,
since arguments end there; only a call from within another program could pass
one, and would fail in a way of its own, which is left out.
-/
def pathFault? (path : String) : Option FileFault :=
  if path.isEmpty then some .notFound
  else if 4096 ≤ path.utf8ByteSize then some .nameTooLong
  else none

namespace FileSystem

/-- What is at a place; the root is always a directory. -/
def entry? (system : FileSystem) (place : Place) : Option FileEntry :=
  if place = [] then some .directory else system.entries.lookup place

/-- Whether a place is a directory. -/
def isDirectory (system : FileSystem) (place : Place) : Bool :=
  system.entry? place == some .directory

/-- The place that a path starts from. -/
def startOf (system : FileSystem) (path : String) : Place :=
  if path.toList.head? == some '/' then [] else system.current

/-- The place that a list of names leads to. -/
def follow (system : FileSystem) : Place → List String → Except FileFault Place
  | place, [] => .ok place
  | place, name :: names =>
      if !system.isDirectory place then .error .notDirectory
      else if name = "." then system.follow place names
      else if name = ".." then system.follow place.dropLast names
      else if isNameTooLong name then .error .nameTooLong
      else if (system.entry? (place ++ [name])).isNone then .error .notFound
      else system.follow (place ++ [name]) names

/-- The contents of the file at a path. -/
def read (system : FileSystem) (path : String) : Except FileFault (List UInt8) :=
  match pathFault? path with
  | some fault => .error fault
  | none => do
      let place ← system.follow (system.startOf path) (pathNames path)
      match system.entry? place with
      | none => .error .notFound
      | some .directory => .error .isDirectory
      | some (.file contents) =>
          if endsWithSlash path then .error .notDirectory else .ok contents

/-- The system with a file of given contents at a place. -/
def put (system : FileSystem) (place : Place) (contents : List UInt8) : FileSystem :=
  { system with
    entries :=
      (system.entries.filter fun entry => entry.1 != place) ++ [(place, .file contents)] }

/-- The place at which a path can be written. -/
def writablePlace (system : FileSystem) (path : String) : Except FileFault Place :=
  match pathFault? path with
  | some fault => .error fault
  | none =>
      match (pathNames path).getLast? with
      | none => .error .isDirectory
      | some name => do
          let parent ← system.follow (system.startOf path) (pathNames path).dropLast
          if !system.isDirectory parent then .error .notDirectory
          else if name = "." ∨ name = ".." ∨ endsWithSlash path then .error .isDirectory
          else if isNameTooLong name then .error .nameTooLong
          else if system.isDirectory (parent ++ [name]) then .error .isDirectory
          else .ok (parent ++ [name])

/-- The system after writing a file at a path. -/
def write
    (system : FileSystem)
    (path : String)
    (contents : List UInt8) :
    Except FileFault FileSystem :=
  (system.writablePlace path).map fun place => system.put place contents

end FileSystem

end GitLanes
