import Descent.Text.Numeral
import Descent.Text.Quoted

/-!
Reading the arguments of the command line. Switches may come before and after the paths, but the
paths must stand together. Short switches may be run together behind one dash, long ones may be
shortened as far as they stay unambiguous, and two dashes alone end the switches.
-/

namespace Descent.CommandLine

inductive Switch where
  | help | strict | echo | indent | recursionLimit | quiet
  deriving DecidableEq

def spellings : List (String × Switch) :=
  [("-h", .help), ("--help", .help), ("-s", .strict), ("--strict", .strict), ("-e", .echo),
    ("--echo", .echo), ("-i", .indent), ("--indent", .indent),
    ("--recursion-limit", .recursionLimit), ("-q", .quiet), ("--quiet", .quiet)]

def Switch.title (switch : Switch) : String :=
  "/".intercalate ((spellings.filter fun entry => entry.2 = switch).map Prod.fst)

structure Options where
  paths : List String
  strict : Bool
  echo : Bool
  indent : Option Int
  recursionLimit : Option Int
  quiet : Bool

inductive UsageError where
  | ambiguous (argument : String) (candidates : List String)
  | missingValue (switch : Switch)
  | unwantedValue (switch : Switch) (value : String)
  | notInteger (switch : Switch) (value : String)
  | missingPath
  | unrecognized (arguments : List String)

def UsageError.message : UsageError → String
  | ambiguous argument candidates =>
    "ambiguous option: " ++ argument ++ " could match " ++ ", ".intercalate candidates
  | missingValue switch => "argument " ++ switch.title ++ ": expected one argument"
  | unwantedValue switch value =>
    "argument " ++ switch.title ++ ": ignored explicit argument " ++ quoted value
  | notInteger switch value =>
    "argument " ++ switch.title ++ ": invalid int value: " ++ quoted value
  | missingPath => "the following arguments are required: path"
  | unrecognized arguments => "unrecognized arguments: " ++ " ".intercalate arguments

inductive Exit where
  | help
  | misuse (error : UsageError)

/-- What one argument is. A long switch is known by its two dashes. Text may be attached to a
switch, to a short one also without an equals sign. -/
inductive Argument where
  | plain (text : String)
  | separator
  | switch (switch : Switch) (long : Bool) (attached : Option (List Char))
  | unknown (text : String)

/-- The part before the first equals sign, and what follows the sign if there is one. -/
def splitAtEquals (text : List Char) : List Char × Option (List Char) :=
  match text.dropWhile (· != '=') with
  | [] => (text, none)
  | _ :: value => (text.takeWhile (· != '='), some value)

def isDecimal (digits : List Char) : Bool :=
  !digits.isEmpty && digits.all fun char => (Numeral.scriptDigit? char).isSome

/-- A dash and digits with at most one point, which digits must follow. One line feed may come at
the end. -/
def isNegativeNumber (text : List Char) : Bool :=
  let trimmed := if text.getLast? = some '\n' then text.dropLast else text
  match trimmed with
  | '-' :: number =>
    match number.dropWhile (· != '.') with
    | [] => isDecimal number
    | _ :: fraction =>
      let whole := number.takeWhile (· != '.')
      isDecimal fraction && (whole.isEmpty || isDecimal whole)
  | _ => false

def isLong (spelling : List Char) : Bool :=
  ['-', '-'].isPrefixOf spelling

/-- The switches that an argument which spells none in full may stand for. -/
def candidates (argument : List Char) : List (String × Argument) :=
  if isLong argument then
    let (name, value) := splitAtEquals argument
    (spellings.filter fun entry => name.isPrefixOf entry.1.toList).map
      fun (spelling, switch) => (spelling, .switch switch true value)
  else
    (spellings.filter fun entry => entry.1.toList = argument.take 2).map
      fun (spelling, switch) => (spelling, .switch switch false (some (argument.drop 2)))

def classify (argument : String) : Except UsageError Argument :=
  let chars := argument.toList
  if chars.head? ≠ some '-' then .ok (.plain argument)
  else match spellings.lookup argument with
    | some switch => .ok (.switch switch (isLong chars) none)
    | none =>
      let (name, value) := splitAtEquals chars
      match chars.tail, value, spellings.lookup (String.ofList name) with
      | [], _, _ => .ok (.plain argument)
      | _, some text, some switch => .ok (.switch switch (isLong name) (some text))
      | _, _, _ =>
        match candidates chars with
        | [(_, only)] => .ok only
        | [] =>
          if isNegativeNumber chars || chars.contains ' ' then .ok (.plain argument)
          else .ok (.unknown argument)
        | several => .error (.ambiguous argument (several.map Prod.fst))

def classifyAll : List String → Except UsageError (List Argument)
  | [] => .ok []
  | argument :: rest =>
    if argument = "--" then .ok (.separator :: rest.map .plain)
    else do return (← classify argument) :: (← classifyAll rest)

/-- The switches that stand together in one argument, the first of them already read. Each further
character must be the letter of a switch. -/
def runTogether (switch : Switch) : List Char → Except UsageError (List Switch)
  | [] => .ok [switch]
  | letter :: rest =>
    match spellings.lookup (String.ofList ['-', letter]) with
    | some next => do return switch :: (← runTogether next rest)
    | none => .error (.unwantedValue switch (String.ofList (letter :: rest)))

/-- What the arguments so far have come to. The paths are complete once a switch follows them. -/
structure Progress where
  options : Options
  pathsComplete : Bool
  extras : List String

namespace Progress

def start : Progress :=
  ⟨⟨[], false, false, none, none, false⟩, false, []⟩

def addExtra (progress : Progress) (text : String) : Progress :=
  { progress with extras := progress.extras ++ [text] }

def addPlain (progress : Progress) (text : String) : Progress :=
  if progress.pathsComplete then progress.addExtra text
  else { progress with options.paths := progress.options.paths ++ [text] }

def closePaths (progress : Progress) : Progress :=
  { progress with pathsComplete := progress.pathsComplete || !progress.options.paths.isEmpty }

/-- Two dashes in place of a limit take back the one that was set before. -/
def setLimit (progress : Progress) (text : String) : Except Exit Progress :=
  if text = "--" then .ok { progress with options.recursionLimit := none }
  else match Numeral.typed? text with
    | some limit => .ok { progress with options.recursionLimit := some limit }
    | none => .error (.misuse (.notInteger .recursionLimit text))

def turnOn (progress : Progress) : Switch → Except Exit Progress
  | .help => .error .help
  | .strict => .ok { progress with options.strict := true }
  | .echo => .ok { progress with options.echo := true }
  | .indent => .ok { progress with options.indent := some 2 }
  | .quiet => .ok { progress with options.quiet := true }
  | .recursionLimit => .error (.misuse (.missingValue .recursionLimit))

def attach (progress : Progress) (switch : Switch) (long : Bool) (text : List Char) :
    Except Exit Progress :=
  if switch = .recursionLimit then progress.setLimit (String.ofList text)
  else if long || text.isEmpty then
    .error (.misuse (.unwantedValue switch (String.ofList text)))
  else match runTogether switch text with
    | .error error => .error (.misuse error)
    | .ok switches => switches.foldlM turnOn progress

def readAll (progress : Progress) : List Argument → Except Exit Progress
  | [] => .ok progress
  | .plain text :: rest => (progress.addPlain text).readAll rest
  | .separator :: rest =>
    (if progress.pathsComplete then progress.addExtra "--" else progress).readAll rest
  | .unknown text :: rest => (progress.closePaths.addExtra text).readAll rest
  | .switch .recursionLimit _ none :: .plain text :: rest => do
    (← progress.closePaths.setLimit text).readAll rest
  | .switch switch _ none :: rest => do (← progress.closePaths.turnOn switch).readAll rest
  | .switch switch long (some text) :: rest => do
    (← progress.closePaths.attach switch long text).readAll rest

def finish (progress : Progress) : Except Exit Options :=
  if progress.options.paths.isEmpty then .error (.misuse .missingPath)
  else if progress.extras.isEmpty then .ok progress.options
  else .error (.misuse (.unrecognized progress.extras))

end Progress

def readArguments (arguments : List String) : Except Exit Options :=
  match classifyAll arguments with
  | .error error => .error (.misuse error)
  | .ok classified => (Progress.start.readAll classified).bind Progress.finish

end Descent.CommandLine
