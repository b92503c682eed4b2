import Descent.Json.Basic
import Descent.Text.Utf8

/-!
Choosing a method by the class of the host it is for. A dispatcher has methods for some class
names. A class without a method of its own is served by the nearest of its ancestors that has one,
and the choice is remembered per class.
-/

namespace Descent

/-- What tells one class from another, whatever their names. -/
inductive ClassId where
  | declared (index : Nat)
  | builtIn (name : String)
  deriving DecidableEq

/-- A class with the names of its ancestors, the nearest first. -/
structure HostClass where
  id : ClassId
  name : String
  ancestors : List String

namespace HostClass

def lineage (host : HostClass) : List String :=
  host.name :: host.ancestors

def root : HostClass :=
  ⟨.builtIn "object", "object", []⟩

end HostClass

def Json.className : Json → String
  | null => "JsonNull"
  | bool _ => "JsonBool"
  | num _ => "JsonNumber"
  | str _ => "JsonString"
  | arr _ => "JsonArray"
  | obj _ => "JsonObject"

def Json.hostClass (value : Json) : HostClass :=
  ⟨.builtIn value.className, value.className, "JsonValue" :: HostClass.root.lineage⟩

/-- Declared classes. Of two with one name, the later one is meant. -/
structure Hierarchy where
  classes : List HostClass

namespace Hierarchy

def find? (hierarchy : Hierarchy) (name : String) : Option HostClass :=
  hierarchy.classes.reverse.find? fun host => host.name == name

/-- A class without a parent, or with an unknown one, comes right below the root. -/
def declare (hierarchy : Hierarchy) (name : String) (parent : Option String) : Hierarchy :=
  let above := (parent.bind hierarchy.find?).getD HostClass.root
  ⟨hierarchy.classes ++ [⟨.declared hierarchy.classes.length, name, above.lineage⟩]⟩

end Hierarchy

structure Dispatcher where
  name : String
  /-- The class names there are methods for. -/
  methods : List String
  /-- For each class dispatched with success, the class name of the method that served it. -/
  remembered : List (ClassId × String)

structure CallFor (ι α : Type) where
  /-- The class name that the method is for. -/
  method : String
  host : ι
  arguments : List α

/-- A call that shows of its host no more than the name of its class. -/
abbrev Call (α : Type) : Type :=
  CallFor String α

inductive DispatchError where
  | noMethod (dispatcher host : String)
  /-- The method remembered for a class is no longer there. -/
  | lostMethod (dispatcher method : String)

def methodName (className : String) : String :=
  "visit_" ++ className

/-- The name of a dispatcher that lost a method is shown only this far, in bytes. -/
def shownBytes : Nat := 50

def DispatchError.message : DispatchError → String
  | noMethod dispatcher host => dispatcher ++ " has no visit method for " ++ host
  | lostMethod dispatcher method =>
    "'" ++ String.ofList (Utf8.clip shownBytes dispatcher.toList) ++
      "' object has no attribute '" ++ methodName method ++ "'"

namespace Dispatcher

def has (dispatcher : Dispatcher) (className : String) : Bool :=
  dispatcher.methods.contains className

def nearest? (dispatcher : Dispatcher) (host : HostClass) : Option String :=
  host.lineage.find? dispatcher.has

def call {ι α : Type} (dispatcher : Dispatcher) (method : String) (host : ι)
    (arguments : List α) : Except DispatchError (CallFor ι α) :=
  if dispatcher.has method then .ok ⟨method, host, arguments⟩
  else .error (.lostMethod dispatcher.name method)

/-- A choice once remembered is not made again. A failure to find a method is not remembered. -/
def dispatchFor {ι α : Type} (dispatcher : Dispatcher) (classOf : ι → HostClass) (host : ι)
    (arguments : List α) : Dispatcher × Except DispatchError (CallFor ι α) :=
  match dispatcher.remembered.lookup (classOf host).id with
  | some method => (dispatcher, dispatcher.call method host arguments)
  | none =>
    match dispatcher.nearest? (classOf host) with
    | some method =>
      ({ dispatcher with remembered := ((classOf host).id, method) :: dispatcher.remembered },
        dispatcher.call method host arguments)
    | none => (dispatcher, .error (.noMethod dispatcher.name (classOf host).name))

/-- Dispatches a host of which nothing but the class is known. -/
def dispatch {α : Type} (dispatcher : Dispatcher) (host : HostClass) (arguments : List α) :
    Dispatcher × Except DispatchError (Call α) :=
  let (next, outcome) := dispatcher.dispatchFor id host arguments
  (next, outcome.map fun call => { call with host := call.host.name })

def addMethod (dispatcher : Dispatcher) (className : String) : Dispatcher :=
  { dispatcher with methods := className :: dispatcher.methods }

def removeMethod (dispatcher : Dispatcher) (className : String) : Dispatcher :=
  { dispatcher with methods := dispatcher.methods.filter (· != className) }

end Dispatcher

end Descent
