import Descent.Pattern.Recursion

/-!
Cells tie recursive grammars. A cell has a name and, from its one definition on, a pattern, which
may mention any cell, itself included. Patterns hold cells by number, so what a cell is defined as
is looked up only when it is entered.
-/

namespace Descent

abbrev CellId := Nat

/-- What a built pattern may still mention: a cell, or a name that is looked up whenever the run
comes to it. -/
inductive Reference where
  | cell (id : CellId)
  | name (key : String)
  deriving DecidableEq

structure Cell where
  name : String
  definition : Option (Pattern Reference)

structure Cells where
  all : Array Cell

namespace Cells

def none : Cells :=
  ⟨#[]⟩

def name (cells : Cells) (id : CellId) : String :=
  match cells.all[id]? with
  | some cell => cell.name
  | .none => "forward"

def definition? (cells : Cells) (id : CellId) : Option (Pattern Reference) :=
  cells.all[id]?.bind Cell.definition

def meaning (cells : Cells) (id : CellId) : Except Fault (Pattern Reference) :=
  match cells.definition? id with
  | some pattern => .ok pattern
  | .none => .error (.undefinedCell (cells.name id))

def add (cells : Cells) (name : String) : Cells × CellId :=
  (⟨cells.all.push ⟨name, .none⟩⟩, cells.all.size)

/-- Only the first definition of a cell counts; another one is refused. -/
def define (cells : Cells) (id : CellId) (pattern : Pattern Reference) : Except Fault Cells :=
  match cells.definition? id with
  | some _ => .error (.redefinedCell (cells.name id))
  | .none => .ok ⟨cells.all.modify id fun cell => { cell with definition := some pattern }⟩

end Cells

end Descent
