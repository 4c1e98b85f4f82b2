import ShiftReduce.Calculator.CommandLine

open ShiftReduce.Calculator

namespace ShiftReduce

/-- The code of a system error, which some calls report negated. -/
def systemCode (code : UInt32) : UInt32 := min code (-code)

/-- The failure that an operating system error stands for. -/
def readFailure (error : IO.Error) : CommandLine.ReadFailure :=
  match error with
  | .noFileOrDirectory .. => .notFound
  | .inappropriateType _ code _ => if systemCode code = 20 then .notDirectory else .isDirectory
  | .invalidArgument _ code _ =>
    if systemCode code = 36 then .nameTooLong else .other (toString error)
  | .permissionDenied _ code _ =>
    if systemCode code = 13 then .denied else .other (toString error)
  | _ => .other (toString error)

def readFile (path : String) : IO (Except CommandLine.ReadFailure ByteArray) := do
  try
    return .ok (← IO.FS.readBinFile path)
  catch e => return .error (readFailure e)

/-- Reads what is left of a stream. -/
partial def readAll (stream : IO.FS.Stream) (read : ByteArray := .empty) : IO ByteArray := do
  let chunk ← stream.read 65536
  if chunk.isEmpty then return read else readAll stream (read ++ chunk)

/-- Reads the source of an invocation, if it has one. -/
def readSource : CommandLine.Invocation → IO (Except CommandLine.ReadFailure ByteArray)
  | .eval (some path) _ => readFile path
  | .eval none _ => do return .ok (← readAll (← IO.getStdin))
  | _ => return .ok .empty

end ShiftReduce

def main (arguments : List String) : IO UInt32 := do
  let report : CommandLine.Report ←
    match CommandLine.read arguments with
    | .error e => pure e.report
    | .ok invocation => invocation.report <$> ShiftReduce.readSource invocation
  IO.print report.stdout
  IO.eprint report.stderr
  return report.code
