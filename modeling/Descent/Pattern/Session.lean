import Descent.Pattern.Cells

/-!
A session makes cells, defines them, gives names to parsers and runs them, in any order. A name in a
description stands for what it means when the parser is built. Only in the part that `lazyAp` asks
for later it stands for what it means when the run gets there.
-/

namespace Descent

structure Session where
  cells : Cells
  /-- What each name stands for, the latest meaning first. -/
  scope : List (String × Pattern Reference)

inductive SessionStep where
  /-- Makes a cell of this name and calls it `key`. -/
  | cell (key name : String)
  | define (key : String) (pattern : Pattern String)
  | name (key : String) (pattern : Pattern String)
  | describe (key : String)
  | run (key : String) (view : View)

/-- A cell made in the session, or the one that ties the JSON grammar, defined from the start. -/
inductive KnownCell where
  | made (id : CellId)
  | jsonValue

/-- The cell that a pattern is, if it is nothing but a cell. -/
def Pattern.cell? : Pattern Reference → Option KnownCell
  | .reference (.cell id) => some (.made id)
  | .rule .value => some .jsonValue
  | _ => none

inductive SessionAnswer where
  | done
  | description (text : String)
  | reply (reply : Reply Value)
  | refused (cause : Fault)

namespace Session

def start : Session :=
  ⟨Cells.none, []⟩

def find (session : Session) (key : String) : Except Fault (Pattern Reference) :=
  match session.scope.lookup key with
  | some pattern => .ok pattern
  | none => .error (.unknownName key)

/-- A cell keeps its identity under every name it is given. -/
def findCell (session : Session) (key : String) : Except Fault KnownCell := do
  match (← session.find key).cell? with
  | some cell => return cell
  | none => .error (.unknownName key)

def cellName (session : Session) : KnownCell → String
  | .made id => session.cells.name id
  | .jsonValue => "json_value"

def defineCell (session : Session) (cell : KnownCell) (pattern : Pattern Reference) :
    Except Fault Session :=
  match cell with
  | .made id => do return { session with cells := ← session.cells.define id pattern }
  | .jsonValue => .error (.redefinedCell (session.cellName cell))

def build (session : Session) (pattern : Pattern String) : Except Fault (Pattern Reference) :=
  pattern.resolve session.find .name

def meanings (session : Session) : Meanings Reference
  | .cell id => session.cells.meaning id
  | .name key => session.find key

/-- There are at most as many references as cells and names were made. -/
def runPattern (session : Session) (pattern : Pattern Reference) : Parser Value :=
  session.meanings.run (session.cells.all.size + session.scope.length) pattern

def bindName (session : Session) (key : String) (pattern : Pattern Reference) : Session :=
  { session with scope := (key, pattern) :: session.scope }

def attempt (session : Session) : SessionStep → Except Fault (Session × SessionAnswer)
  | .cell key name =>
    let (cells, id) := session.cells.add name
    .ok ({ session with cells }.bindName key (.reference (.cell id)), .done)
  | .define key pattern => do
    let cell ← session.findCell key
    let built ← session.build pattern
    return (← session.defineCell cell built, .done)
  | .name key pattern => do return (session.bindName key (← session.build pattern), .done)
  | .describe key => do
    let cell ← session.findCell key
    return (session, .description ("<Forward " ++ session.cellName cell ++ ">"))
  | .run key view => do
    return (session, .reply (session.runPattern (← session.find key) view))

/-- A refused step changes nothing. -/
def step (session : Session) (step : SessionStep) : Session × SessionAnswer :=
  match session.attempt step with
  | .ok result => result
  | .error cause => (session, .refused cause)

def run (session : Session) : List SessionStep → Session × List SessionAnswer
  | [] => (session, [])
  | step :: rest =>
    let (next, answer) := session.step step
    let (last, answers) := next.run rest
    (last, answer :: answers)

end Session

end Descent
