import EcmaSyntax.CommandLine.Run

/-!
The program: it reads the files that the command line names, and writes what
the run on them gives.
-/

namespace EcmaSyntax.CommandLine

def readFault : IO.Error → ReadFault
  | .noFileOrDirectory .. => .missing
  | .inappropriateType _ code _ => if code == 21 then .isDirectory else .notDirectory
  | .permissionDenied .. => .other "Permission denied (os error 13)"
  | error => .other (toString error)

def readText (path : String) : IO (Except ReadFault String) := do
  match ← (IO.FS.readBinFile path).toBaseIO with
  | .error error => return .error (readFault error)
  | .ok bytes =>
    match String.fromUTF8? bytes with
    | some text => return .ok text
    | none => return .error .notText

end EcmaSyntax.CommandLine

open EcmaSyntax.CommandLine in
def main (args : List String) : IO UInt32 := do
  let read ← (consulted args).mapM fun path => do return (path, ← readText path)
  let outcome := run (fun path => (read.lookup path).getD (.error .missing)) args
  (← IO.getStdout).putStr outcome.output
  outcome.complaints.forM fun complaint => IO.eprintln complaint.message
  return outcome.status.toUInt32
