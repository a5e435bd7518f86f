import KnitBench.CommandLine.Report

/-! The program: it reads the script, if one is asked for, and prints the report. -/

open KnitBench CommandLine

/-- Why a file could not be read, with the system's number for it. -/
def readFailure : IO.Error → String
  | .noFileOrDirectory _ _ _ => "No such file or directory (os error 2)"
  | .permissionDenied _ _ _ => "Permission denied (os error 13)"
  | .inappropriateType _ _ _ => "Is a directory (os error 21)"
  | e => toString e

/-- The text of a file, or why it cannot be read. -/
def readFile (path : String) : IO (Except String String) := do
  match ← (IO.FS.readBinFile path).toBaseIO with
  | .error e => return .error (readFailure e)
  | .ok bytes =>
    return (String.fromUTF8? bytes).elim (.error "stream did not contain valid UTF-8") .ok

def main (args : List String) : IO UInt32 := do
  let script ← match Invocation.read args with
    | .ok (.replay path _) => readFile path
    | _ => pure (.ok "")
  let r := report (fun _ => script) args
  (← IO.getStdout).putStr r.out
  (← IO.getStderr).putStr r.err
  return r.status.toUInt32
