import GitLanes.Command.Run
import Std.Time.Zoned

namespace GitLanes

/-!
# The program

Carries out the command on the real file system, at the real time.
-/

/-- The number of a real failure, which some devices give with a minus sign. -/
def FileFault.ofDevice (code : UInt32) (description : String) : FileFault :=
  .ofCode code.toInt32.toInt.natAbs description

/-- A real failure to read or write as a fault. -/
def FileFault.ofError : IO.Error → FileFault
  | .noFileOrDirectory _ code details => .ofDevice code details
  | .inappropriateType _ code details => .ofDevice code details
  | .invalidArgument _ code details => .ofDevice code details
  | .permissionDenied _ code details => .ofDevice code details
  | .resourceExhausted _ code details => .ofDevice code details
  | .otherError code details => .ofDevice code details
  | error => .other 5 error.toString

/-- A request's result, or the fault that kept it from having one. -/
def attempt {α : Type} (request : IO α) : IO (Except FileFault α) := do
  match ← request.toBaseIO with
  | .ok result => return .ok result
  | .error error => return .error (.ofError error)

/-- A command carried out on the real file system. -/
def Action.perform : Action → IO CommandResult
  | .finish result => return result
  | .read path next => do
      let contents ← attempt (IO.FS.readBinFile path)
      (next (contents.map ByteArray.toList)).perform
  | .write path contents next => do
      let written ← attempt (IO.FS.writeBinFile path contents.toByteArray)
      (next written).perform

/-- A number with zeros in front of it up to a width. -/
def paddedNumber (width : Nat) (value : Int) : String :=
  let digits := integerNumeral value
  String.ofList (List.replicate (width - digits.length) '0' ++ digits)

/-- A time in UTC to the microsecond. -/
def timestampText (time : Std.Time.PlainDateTime) : String :=
  let microseconds := time.nanosecond.toInt / 1000
  paddedNumber 4 time.year.toInt ++ "-" ++ paddedNumber 2 time.month.toInt ++ "-" ++
    paddedNumber 2 time.day.toInt ++ "T" ++ paddedNumber 2 time.hour.toInt ++ ":" ++
    paddedNumber 2 time.minute.toInt ++ ":" ++ paddedNumber 2 time.second.toInt ++
    (if microseconds = 0 then "" else "." ++ paddedNumber 6 microseconds) ++ "+00:00"

/-- The present time in UTC. -/
def presentTime : IO String := do
  let now ← Std.Time.Timestamp.now
  return timestampText (Std.Time.DateTime.ofTimestampWithZone now .UTC).toPlainDateTime

end GitLanes

/-- Draw a source file as the arguments say. -/
def main (arguments : List String) : IO UInt32 := do
  let now ← GitLanes.presentTime
  let result ← (GitLanes.command arguments now).perform
  (← IO.getStderr).putStr result.errors
  (← IO.getStdout).putStr result.output
  return UInt32.ofNat result.exitCode
