import Descent.CommandLine.Folder
import Descent.CommandLine.Options
import Descent.Json.Document
import Descent.Json.Layout
import Descent.Diagnostic
import Descent.Text.Utf8

/-!
What a run of the command line writes. Each file is read whole, then parsed; one that fails is
reported, and the others are still tried.
-/

namespace Descent.CommandLine

def program : String :=
  "py -m kombi"

def usage : String :=
  "usage: " ++ program ++ " [-h] [-s] [-e] [-i] [--recursion-limit N] [-q]\n" ++
  "                   path [path ...]\n"

def helpText : String :=
  usage ++
  "\nRead JSON documents with the combinator grammar and report how long it took.\n" ++
  "Each file is read whole, then parsed. A file that does not parse is reported\n" ++
  "on STDERR and the exit status will be 1; the remaining files are still tried.\n" ++
  "\npositional arguments:\n" ++
  "  path                 path to a JSON document\n" ++
  "\noptions:\n" ++
  "  -h, --help           show this help message and exit\n" ++
  "  -s, --strict         complain about anything after the value except\n" ++
  "                       whitespace\n" ++
  "  -e, --echo           print the parsed value back out as JSON text\n" ++
  "  -i, --indent         indent the echoed JSON for easier reading.\n" ++
  "  --recursion-limit N  allow more deeply nested documents than Python\n" ++
  "                       ordinarily would\n" ++
  "  -q, --quiet          don't report timings\n"

inductive Break where
  | limitTooLow
  | nullInPath

def Break.message : Break → String
  | limitTooLow => "recursion limit must be greater or equal than 1"
  | nullInPath => "embedded null byte"

inductive Ending where
  /-- The arguments left nothing to run. -/
  | exit (code : Nat)
  | status (code : Nat)
  | broken (cause : Break)

/-- The ending once another file has come to a status: that of the worst file counts. -/
def Ending.after (status : Nat) : Ending → Ending
  | .status code => .status (max status code)
  | ending => ending

@[simp] theorem Ending.after_status (status code : Nat) :
    (Ending.status code).after status = .status (max status code) :=
  rfl

structure Report where
  stdout : String
  stderr : String
  warnings : List String
  ending : Ending

def defaultLimit : Int := 1000

def Options.limit (options : Options) : Int :=
  match options.recursionLimit with
  | some limit => if limit = 0 then defaultLimit else limit
  | none => defaultLimit

/-- A document may nest arrays and objects to a tenth of the limit; its innermost value is open
besides. This is an estimate from above: the limit counts calls, of which a level takes ten to
thirteen, so at the limit of 1000 some documents are read here that nest from 75 to 100 levels deep
and would exceed it. -/
def Options.depth (options : Options) : Nat :=
  options.limit.toNat / 10 + 1

def Options.warnings (options : Options) : List String :=
  if options.limit < defaultLimit then
    ["Lowering the recursion limit to " ++ toString options.limit ++ "."]
  else []

def undecodable (bad : Utf8.BadBytes) : String :=
  let place :=
    if bad.count = 1 then
      "byte 0x" ++ String.ofList (Quoted.hexDigits 2 bad.first.toNat) ++ " in position " ++
        toString bad.position
    else
      "bytes in position " ++ toString bad.position ++ "-" ++
        toString (bad.position + bad.count - 1)
  "'utf-8' codec can't decode " ++ place ++ ": " ++ bad.reason.message

def seconds (milliseconds : Nat) : String :=
  let rest := toString (milliseconds % 1000)
  toString (milliseconds / 1000) ++ "." ++ String.ofList (List.replicate (3 - rest.length) '0') ++
    rest

def timing (path : String) (size milliseconds : Nat) : String :=
  "Took " ++ seconds milliseconds ++ " s to parse " ++ toString size ++
    " characters (roughly " ++ toString ((size + 2) / 1024 / 1024) ++ " mb) from " ++ path ++ "\n"

/-- What there is to say about one file: the size of its text and what is echoed of it, or else a
complaint. -/
inductive FileReport where
  | accepted (size : Nat) (echoed : String)
  | failed (complaint : String)

def decodeFile (bytes : List UInt8) : Except Utf8.BadBytes String :=
  (Utf8.decode bytes).map fun chars => String.ofList (LineBreak.unify chars)

def parseFile (options : Options) (text : String) : Except Json.ReadError Json :=
  Json.readWithin options.depth options.strict text

def readComplaint (path text : String) : Json.ReadError → String
  | .trailing position =>
    (Source.mk text.toList (some path)).diagnostic position
      "unexpected text after the JSON value" 1
  | .tooDeep => path ++ ": nested too deeply; try a larger --recursion-limit."
  | _ => path ++ ": not recognized as JSON."

def reportText (options : Options) (path text : String) : FileReport :=
  match parseFile options text with
  | .ok value =>
    .accepted text.length (if options.echo then Json.render options.indent value ++ "\n" else "")
  | .error error => .failed (readComplaint path text error)

def reportFile (options : Options) (path : String) (content : Except ReadFault (List UInt8)) :
    FileReport :=
  match content with
  | .error fault => .failed (path ++ ": cannot read: " ++ fault.message path)
  | .ok bytes =>
    match decodeFile bytes with
    | .error bad => .failed (path ++ ": cannot read: " ++ undecodable bad)
    | .ok text => reportText options path text

namespace FileReport

def stdout (options : Options) (path : String) (milliseconds : Nat) : FileReport → String
  | accepted size echoed =>
    (if options.quiet then "" else timing path size milliseconds) ++ echoed
  | failed _ => ""

def stderr : FileReport → String
  | accepted _ _ => ""
  | failed complaint => complaint ++ "\n"

def status : FileReport → Nat
  | accepted _ _ => 0
  | failed _ => 1

end FileReport

def reportFiles (options : Options) (read : String → Except ReadFault (List UInt8))
    (elapsed : String → Nat) : List String → Report
  | [] => ⟨"", "", [], .status 0⟩
  | path :: rest =>
    if path.toList.contains '\x00' then ⟨"", "", [], .broken .nullInPath⟩
    else
      let first := reportFile options path (read path)
      let later := reportFiles options read elapsed rest
      { later with
        stdout := first.stdout options path (elapsed path) ++ later.stdout
        stderr := first.stderr ++ later.stderr
        ending := later.ending.after first.status }

/-- A limit below zero is refused before any file is read. -/
def Options.refused (options : Options) : Bool :=
  options.limit < 0

def run (options : Options) (read : String → Except ReadFault (List UInt8))
    (elapsed : String → Nat) : Report :=
  if options.refused then ⟨"", "", options.warnings, .broken .limitTooLow⟩
  else { reportFiles options read elapsed options.paths with warnings := options.warnings }

def Exit.report : Exit → Report
  | .help => ⟨helpText, "", [], .exit 0⟩
  | .misuse error => ⟨"", usage ++ program ++ ": error: " ++ error.message ++ "\n", [], .exit 2⟩

def runArguments (arguments : List String) (read : String → Except ReadFault (List UInt8))
    (elapsed : String → Nat) : Report :=
  match readArguments arguments with
  | .ok options => run options read elapsed
  | .error exit => exit.report

end Descent.CommandLine
