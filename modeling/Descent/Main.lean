import Descent.CommandLine.Console

/-!
The command line program: it reads the files named by its arguments from the disk and takes the time
that parsing each of them needs.
-/

namespace Descent.CommandLine

def readFile (path : String) : IO (Except ReadFault (List UInt8)) := do
  try
    return .ok (← IO.FS.readBinFile path).toList
  catch
    | .inappropriateType _ code _ => return .error (if code = 21 then .isFolder else .notFolder)
    | .permissionDenied .. => return .error .denied
    | .invalidArgument _ 36 _ => return .error .nameTooLong
    | _ => return .error .notFound

def timeReport (task : Unit → FileReport) : IO (FileReport × Nat) := do
  let began ← IO.monoMsNow
  let report ← IO.lazyPure task
  let ended ← IO.monoMsNow
  return (report, ended - began)

def terminal : Console IO where
  read := readFile
  timed _ task := timeReport task
  print := IO.print
  complain := IO.eprint
  warn := IO.eprintln

end Descent.CommandLine

open Descent.CommandLine in
def main (arguments : List String) : IO UInt32 := do
  match ← terminal.runArguments arguments with
  | .exit code => return code.toUInt32
  | .status code => return code.toUInt32
  | .broken cause =>
    IO.eprintln cause.message
    return 1
