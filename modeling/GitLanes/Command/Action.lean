import GitLanes.Command.FileSystem
import GitLanes.Text.Utf8

namespace GitLanes

/-!
# Actions of a command

A command reads and writes files and ends with what it has to say. It is kept
as a tree of these requests, so that the same command runs on a real file
system and on a described one.
-/

/-- What a command leaves behind when it ends. -/
structure CommandResult where
  exitCode : Nat
  output : String
  errors : String
  deriving Repr, DecidableEq

/-- A command as the requests that it makes. -/
inductive Action
  | read (path : String) (next : Except FileFault (List UInt8) → Action)
  | write (path : String) (contents : List UInt8) (next : Except FileFault Unit → Action)
  | finish (result : CommandResult)

/-- A command carried out on a described file system. -/
def Action.run (system : FileSystem) : Action → FileSystem × CommandResult
  | .finish result => (system, result)
  | .read path next => (next (system.read path)).run system
  | .write path contents next =>
      match system.write path contents with
      | .ok written => (next (.ok ())).run written
      | .error fault => (next (.error fault)).run system

end GitLanes
