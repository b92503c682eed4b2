import Descent.CommandLine.Report

/-!
A run of the command line against its surroundings: where files are read, the time is taken and
something is written as soon as there is something to write.
-/

namespace Descent.CommandLine

structure Console (m : Type → Type) where
  read : String → m (Except ReadFault (List UInt8))
  /-- Makes the report of the file under a path and takes the time in milliseconds. -/
  timed : String → (Unit → FileReport) → m (FileReport × Nat)
  print : String → m Unit
  complain : String → m Unit
  warn : String → m Unit

namespace Console

variable {m : Type → Type} [Monad m]

def reportFiles (console : Console m) (options : Options) : List String → m Ending
  | [] => return .status 0
  | path :: rest =>
    if path.toList.contains '\x00' then return .broken .nullInPath
    else do
      let content ← console.read path
      let (report, elapsed) ← console.timed path fun _ => reportFile options path content
      console.print (report.stdout options path elapsed)
      console.complain report.stderr
      return (← console.reportFiles options rest).after report.status

def run (console : Console m) (options : Options) : m Ending := do
  options.warnings.forM console.warn
  if options.refused then return .broken .limitTooLow
  else console.reportFiles options options.paths

def runArguments (console : Console m) (arguments : List String) : m Ending :=
  match readArguments arguments with
  | .ok options => console.run options
  | .error exit => do
    console.print exit.report.stdout
    console.complain exit.report.stderr
    return exit.report.ending

end Console

end Descent.CommandLine
