import Descent.Dispatch

/-!
What a dispatcher remembers has no part in what it answers. On classes with single inheritance each visit
comes to what a first visit comes to: a call of the method for the nearest class among the ancestors.
-/

namespace Descent

/-- Classes with single inheritance and the chain of each one: itself first, then its parent, and so on
up to the root. Classes are told apart by their identity; several may have one name. -/
structure SingleInheritance (classes : HostClass → Prop) (chain : HostClass → List HostClass) :
    Prop where
  identity : ∀ {host other}, classes host → classes other → host.id = other.id → host = other
  root : classes HostClass.root ∧ chain HostClass.root = [HostClass.root]
  below : ∀ {host}, classes host → host ≠ HostClass.root → ∃ parent, classes parent ∧
    host.ancestors = parent.lineage ∧ chain host = host :: chain parent

section Inheritance

variable {classes : HostClass → Prop} {chain : HostClass → List HostClass} {host above : HostClass}

namespace SingleInheritance

/-- From the root down. -/
theorem induct {motive : HostClass → Prop} (inheritance : SingleInheritance classes chain)
    (root : motive HostClass.root)
    (below : ∀ host parent, host.ancestors = parent.lineage → chain host = host :: chain parent →
      motive parent → motive host)
    {host : HostClass} (inside : classes host) : motive host := by
  by_cases top : host = HostClass.root
  · rwa [top]
  · obtain ⟨parent, parentInside, ancestors, more⟩ := inheritance.below inside top
    exact below host parent ancestors more (inheritance.induct root below parentInside)
termination_by (chain host).length
decreasing_by
  rw [more, List.length_cons]
  exact Nat.lt_add_one _

theorem lineage_eq (inheritance : SingleInheritance classes chain) (inside : classes host) :
    host.lineage = (chain host).map HostClass.name := by
  refine inheritance.induct (motive := fun host => host.lineage = (chain host).map HostClass.name)
    ?_ (fun host parent ancestors more ih => ?_) inside
  · rw [inheritance.root.2]
    rfl
  · rw [HostClass.lineage, ancestors, ih, more, List.map_cons]

/-- A new class right below one that is there. -/
theorem extend (inheritance : SingleInheritance classes chain) (inside : classes above)
    {id : ClassId} (fresh : ∀ host, classes host → host.id ≠ id) (name : String) :
    ∃ extended, SingleInheritance (fun host => classes host ∨ host = ⟨id, name, above.lineage⟩)
      extended := by
  let added : HostClass := ⟨id, name, above.lineage⟩
  refine ⟨fun host => if host.id = id then added :: chain above else chain host, ?_, ?_, ?_⟩
  · rintro host other (here | rfl) (there | rfl) same
    · exact inheritance.identity here there same
    · exact absurd same (fresh host here)
    · exact absurd same.symm (fresh other there)
    · rfl
  · have apart := fresh _ inheritance.root.1
    exact ⟨.inl inheritance.root.1, by rw [if_neg apart, inheritance.root.2]⟩
  · rintro host (here | rfl) notRoot
    · obtain ⟨parent, parentInside, ancestors, more⟩ := inheritance.below here notRoot
      refine ⟨parent, .inl parentInside, ancestors, ?_⟩
      rw [if_neg (fresh host here), if_neg (fresh parent parentInside), more]
    · refine ⟨above, .inl inside, rfl, ?_⟩
      rw [if_pos rfl, if_neg (fresh above inside)]

end SingleInheritance

namespace Hierarchy

def Has (hierarchy : Hierarchy) (host : HostClass) : Prop :=
  host = HostClass.root ∨ host ∈ hierarchy.classes

def ofDeclarations (declarations : List (String × Option String)) : Hierarchy :=
  declarations.foldl (fun hierarchy declaration => hierarchy.declare declaration.1 declaration.2) ⟨[]⟩

structure Grown (hierarchy : Hierarchy) : Prop where
  inherits : ∃ chain, SingleInheritance hierarchy.Has chain
  numbered : ∀ host ∈ hierarchy.classes, ∃ index < hierarchy.classes.length,
    host.id = .declared index

theorem has_above (hierarchy : Hierarchy) (parent : Option String) :
    hierarchy.Has ((parent.bind hierarchy.find?).getD HostClass.root) := by
  cases found : parent.bind hierarchy.find? with
  | none => exact .inl rfl
  | some above =>
    obtain ⟨name, _, found⟩ := Option.bind_eq_some_iff.mp found
    exact .inr (List.mem_reverse.mp (List.mem_of_find?_eq_some found))

theorem has_declare (hierarchy : Hierarchy) (name : String) (parent : Option String) :
    (hierarchy.declare name parent).Has = fun host => hierarchy.Has host ∨
      host = ⟨.declared hierarchy.classes.length, name,
        ((parent.bind hierarchy.find?).getD HostClass.root).lineage⟩ := by
  funext host
  simp only [Has, declare, List.mem_append, List.mem_singleton, or_assoc]

theorem Grown.declare {hierarchy : Hierarchy} (grown : hierarchy.Grown) (name : String)
    (parent : Option String) : (hierarchy.declare name parent).Grown := by
  obtain ⟨chain, inheritance⟩ := grown.inherits
  have fresh : ∀ host, hierarchy.Has host → host.id ≠ .declared hierarchy.classes.length := by
    rintro host (rfl | inside) same
    · cases same
    · obtain ⟨index, below, number⟩ := grown.numbered host inside
      rw [number, ClassId.declared.injEq] at same
      omega
  obtain ⟨extended, inheritance⟩ := inheritance.extend (hierarchy.has_above parent) fresh name
  constructor
  · rw [has_declare]
    exact ⟨extended, inheritance⟩
  · intro host inside
    rw [Hierarchy.declare, List.length_append]
    rcases List.mem_append.mp inside with before | new
    · obtain ⟨index, below, number⟩ := grown.numbered host before
      exact ⟨index, Nat.lt_add_right _ below, number⟩
    · rw [List.mem_singleton.mp new]
      exact ⟨_, Nat.lt_add_one _, rfl⟩

theorem grown_empty : Grown ⟨[]⟩ := by
  refine ⟨⟨fun host => [host], ?_, ⟨.inl rfl, rfl⟩, ?_⟩, nofun⟩
  · rintro host other (rfl | inside) (rfl | inside') _
    · rfl
    all_goals contradiction
  · rintro host (rfl | inside) notRoot
    · exact absurd rfl notRoot
    · cases inside

theorem grown_ofDeclarations (declarations : List (String × Option String)) :
    (ofDeclarations declarations).Grown :=
  List.foldlRecOn declarations _ grown_empty
    fun _ grown declaration _ => grown.declare declaration.1 declaration.2

end Hierarchy

end Inheritance

namespace Dispatcher

variable {ι α : Type} {dispatcher first : Dispatcher} {classes : HostClass → Prop}
variable {chain : HostClass → List HostClass} {classOf : ι → HostClass}

def answer (dispatcher : Dispatcher) (classOf : ι → HostClass) (host : ι) (arguments : List α) :
    Except DispatchError (CallFor ι α) :=
  match dispatcher.nearest? (classOf host) with
  | some method => .ok ⟨method, host, arguments⟩
  | none => .error (.noMethod dispatcher.name (classOf host).name)

structure Answers (dispatcher : Dispatcher) (chain : List HostClass) (className : String) (host : ι)
    (arguments : List α) (outcome : Except DispatchError (CallFor ι α)) : Prop where
  called : ∀ call, outcome = .ok call ↔ ∃ nearer nearest further,
    chain = nearer ++ nearest :: further ∧ (∀ above ∈ nearer, dispatcher.has above.name = false) ∧
    dispatcher.has nearest.name = true ∧ call = ⟨nearest.name, host, arguments⟩
  refused : ∀ failure, outcome = .error failure ↔
    (∀ above ∈ chain, dispatcher.has above.name = false) ∧
    failure = .noMethod dispatcher.name className

section Nearest

variable {host : HostClass} {method : String}

theorem nearest?_eq (inheritance : SingleInheritance classes chain) (inside : classes host) :
    dispatcher.nearest? host =
      ((chain host).find? fun above => dispatcher.has above.name).map HostClass.name := by
  rw [nearest?, inheritance.lineage_eq inside, List.find?_map]
  rfl

theorem nearest?_eq_some_iff (inheritance : SingleInheritance classes chain)
    (inside : classes host) : dispatcher.nearest? host = some method ↔
      ∃ nearer nearest further, chain host = nearer ++ nearest :: further ∧
        (∀ above ∈ nearer, dispatcher.has above.name = false) ∧
        dispatcher.has nearest.name = true ∧ nearest.name = method := by
  simp only [nearest?_eq inheritance inside, Option.map_eq_some_iff,
    List.find?_eq_some_iff_append, Bool.not_eq_true']
  constructor
  · rintro ⟨nearest, ⟨served, nearer, further, split, unserved⟩, named⟩
    exact ⟨nearer, nearest, further, split, unserved, served, named⟩
  · rintro ⟨nearer, nearest, further, split, unserved, served, named⟩
    exact ⟨nearest, ⟨served, nearer, further, split, unserved⟩, named⟩

theorem nearest?_eq_none_iff (inheritance : SingleInheritance classes chain)
    (inside : classes host) : dispatcher.nearest? host = none ↔
      ∀ above ∈ chain host, dispatcher.has above.name = false := by
  simp only [nearest?_eq inheritance inside, Option.map_eq_none_iff, List.find?_eq_none,
    Bool.not_eq_true]

theorem has_of_nearest? (chosen : dispatcher.nearest? host = some method) :
    dispatcher.has method = true :=
  List.find?_some chosen

end Nearest

section Answer

variable {host : ι} {arguments : List α}

theorem answer_eq_ok_iff {call : CallFor ι α} :
    dispatcher.answer classOf host arguments = .ok call ↔
      ∃ method, dispatcher.nearest? (classOf host) = some method ∧
        call = ⟨method, host, arguments⟩ := by
  rw [answer]
  cases dispatcher.nearest? (classOf host) with
  | none => exact ⟨nofun, nofun⟩
  | some method =>
    rw [Except.ok.injEq, eq_comm]
    constructor
    · exact fun same => ⟨method, rfl, same⟩
    · rintro ⟨_, ⟨⟩, same⟩
      exact same

theorem answer_eq_error_iff {failure : DispatchError} :
    dispatcher.answer classOf host arguments = .error failure ↔
      dispatcher.nearest? (classOf host) = none ∧
        failure = .noMethod dispatcher.name (classOf host).name := by
  rw [answer]
  cases dispatcher.nearest? (classOf host) with
  | none => rw [Except.error.injEq, eq_comm, eq_self, true_and]
  | some method => exact ⟨nofun, nofun⟩

theorem answers_answer (inheritance : SingleInheritance classes chain)
    (inside : classes (classOf host)) :
    dispatcher.Answers (chain (classOf host)) (classOf host).name host arguments
      (dispatcher.answer classOf host arguments) := by
  constructor
  · intro call
    rw [answer_eq_ok_iff]
    constructor
    · rintro ⟨method, chosen, same⟩
      obtain ⟨nearer, nearest, further, split, unserved, served, rfl⟩ :=
        (nearest?_eq_some_iff inheritance inside).mp chosen
      exact ⟨nearer, nearest, further, split, unserved, served, same⟩
    · rintro ⟨nearer, nearest, further, split, unserved, served, same⟩
      refine ⟨nearest.name, ?_, same⟩
      exact (nearest?_eq_some_iff inheritance inside).mpr
        ⟨nearer, nearest, further, split, unserved, served, rfl⟩
  · intro failure
    rw [answer_eq_error_iff, nearest?_eq_none_iff inheritance inside]

end Answer

def visited (dispatcher : Dispatcher) (classOf : ι → HostClass) (visits : List (ι × List α)) :
    Dispatcher :=
  visits.foldl (fun dispatcher visit => (dispatcher.dispatchFor classOf visit.1 visit.2).1) dispatcher

theorem dispatchFor_of_error {host : ι} {arguments : List α} {failure : DispatchError}
    (failed : (dispatcher.dispatchFor classOf host arguments).2 = .error failure) :
    (dispatcher.dispatchFor classOf host arguments).1 = dispatcher := by
  unfold dispatchFor at failed ⊢
  cases remembered : dispatcher.remembered.lookup (classOf host).id with
  | some method => rfl
  | none =>
    cases chosen : dispatcher.nearest? (classOf host) with
    | none => rfl
    | some method =>
      rw [remembered, chosen] at failed
      simp only [call, has_of_nearest? chosen, if_true, reduceCtorEq] at failed

/-- The dispatcher `first` with what it may remember: of each class what looking anew would give. -/
structure Recalls (first : Dispatcher) (classes : HostClass → Prop) (dispatcher : Dispatcher) :
    Prop where
  name : dispatcher.name = first.name
  methods : dispatcher.methods = first.methods
  entries : ∀ id method, (id, method) ∈ dispatcher.remembered →
    ∃ host, classes host ∧ host.id = id ∧ first.nearest? host = some method

namespace Recalls

theorem refl_of_nothing (nothing : first.remembered = []) : first.Recalls classes first :=
  ⟨rfl, rfl, by rw [nothing]; nofun⟩

theorem has_eq (recalls : first.Recalls classes dispatcher) : dispatcher.has = first.has := by
  funext className
  rw [has, has, recalls.methods]

theorem nearest?_eq (recalls : first.Recalls classes dispatcher) :
    dispatcher.nearest? = first.nearest? := by
  funext host
  rw [nearest?, nearest?, recalls.has_eq]

theorem step (recalls : first.Recalls classes dispatcher) {host : ι}
    (inside : classes (classOf host)) (arguments : List α) :
    first.Recalls classes (dispatcher.dispatchFor classOf host arguments).1 := by
  unfold dispatchFor
  cases remembered : dispatcher.remembered.lookup (classOf host).id with
  | some method => exact recalls
  | none =>
    cases chosen : dispatcher.nearest? (classOf host) with
    | none => exact recalls
    | some method =>
      refine ⟨recalls.name, recalls.methods, fun id method inEntries => ?_⟩
      rcases List.mem_cons.mp inEntries with new | before
      · obtain ⟨rfl, rfl⟩ := Prod.mk.inj new
        exact ⟨classOf host, inside, rfl, recalls.nearest?_eq ▸ chosen⟩
      · exact recalls.entries id method before

theorem run (recalls : first.Recalls classes dispatcher) (inside : ∀ host, classes (classOf host))
    (visits : List (ι × List α)) : first.Recalls classes (dispatcher.visited classOf visits) :=
  List.foldlRecOn visits _ recalls fun _ recalls visit _ => recalls.step (inside visit.1) visit.2

/-- The class that an entry is for is the class of the host, since the two have one identity. -/
theorem dispatchFor_eq (recalls : first.Recalls classes dispatcher)
    (inheritance : SingleInheritance classes chain) {host : ι} (inside : classes (classOf host))
    (arguments : List α) :
    (dispatcher.dispatchFor classOf host arguments).2 = first.answer classOf host arguments := by
  rw [dispatchFor, recalls.nearest?_eq, answer]
  have called : ∀ {method}, first.nearest? (classOf host) = some method →
      dispatcher.call method host arguments = .ok ⟨method, host, arguments⟩ := fun chosen => by
    rw [call, recalls.has_eq, if_pos (has_of_nearest? chosen)]
  cases remembered : dispatcher.remembered.lookup (classOf host).id with
  | some method =>
    obtain ⟨before, after, split, _⟩ := List.lookup_eq_some_iff.mp remembered
    obtain ⟨other, otherInside, same, chosen⟩ :=
      recalls.entries _ method (split ▸ List.mem_append_right before List.mem_cons_self)
    rw [inheritance.identity otherInside inside same] at chosen
    rw [chosen]
    exact called chosen
  | none =>
    cases chosen : first.nearest? (classOf host) with
    | some method => exact called chosen
    | none => rw [recalls.name]

end Recalls

/-- After any visits, failed ones included, the next one comes to what it would have come to as the first:
the host and the arguments go to the method for the nearest class of the chain. What is remembered for a
class is what looking anew gives, and a visit that fails adds nothing to it. -/
theorem remembering_invisible (inheritance : SingleInheritance classes chain)
    (inside : ∀ host, classes (classOf host)) (nothing : dispatcher.remembered = [])
    (visits : List (ι × List α)) (host : ι) (arguments : List α) :
    let reached := dispatcher.visited classOf visits
    let outcome := (reached.dispatchFor classOf host arguments).2
    dispatcher.Answers (chain (classOf host)) (classOf host).name host arguments outcome ∧
      outcome = (dispatcher.dispatchFor classOf host arguments).2 ∧
      (∀ id method, (id, method) ∈ reached.remembered →
        ∃ seen, classes seen ∧ seen.id = id ∧ dispatcher.nearest? seen = some method) ∧
      ∀ failure, outcome = .error failure →
        (reached.dispatchFor classOf host arguments).1 = reached := by
  intro reached outcome
  have fresh : dispatcher.Recalls classes dispatcher := .refl_of_nothing nothing
  have recalls : dispatcher.Recalls classes reached := fresh.run inside visits
  have answered : outcome = dispatcher.answer classOf host arguments :=
    recalls.dispatchFor_eq inheritance (inside host) arguments
  refine ⟨?_, ?_, recalls.entries, fun _ => dispatchFor_of_error⟩
  · rw [answered]
    exact answers_answer inheritance (inside host)
  · rw [answered, fresh.dispatchFor_eq inheritance (inside host)]

def sampleHierarchy : Hierarchy :=
  .ofDeclarations [("Shape", none), ("Round", some "Shape"), ("Shape", some "Round"), ("Colour", none)]

def samplePainter : Dispatcher :=
  ⟨"Painter", ["Shape"], []⟩

def sampleClass (index : Nat) : HostClass :=
  sampleHierarchy.classes.getD index HostClass.root

theorem sampleClass_inside (index : Nat) : sampleHierarchy.Has (sampleClass index) := by
  rw [sampleClass, List.getD_eq_getElem?_getD]
  cases found : sampleHierarchy.classes[index]? with
  | none => exact .inl rfl
  | some host => exact .inr (List.mem_of_getElem? found)

theorem samplePainter_remembers :
    let reached := samplePainter.visited sampleClass [(2, [10]), (3, []), (0, [20, 30])]
    ∃ chain, SingleInheritance sampleHierarchy.Has chain ∧
      (∀ index, sampleHierarchy.Has (sampleClass index)) ∧ samplePainter.remembered = [] ∧
      samplePainter.Answers (chain (sampleClass 1)) "Round" 1 [40]
        (reached.dispatchFor sampleClass 1 [40]).2 ∧
      (reached.dispatchFor sampleClass 1 [40]).2 = .ok ⟨"Shape", 1, [40]⟩ ∧
      (reached.dispatchFor sampleClass 3 [50]).2 = .error (.noMethod "Painter" "Colour") ∧
      (reached.dispatchFor sampleClass 3 [50]).1 = reached := by
  intro reached
  obtain ⟨chain, inheritance⟩ := Hierarchy.grown_ofDeclarations _ |>.inherits
  have nothing : samplePainter.remembered = [] := rfl
  have next := remembering_invisible inheritance sampleClass_inside nothing
    [(2, [10]), (3, []), (0, [20, 30])]
  obtain ⟨answers, same, -⟩ := next 1 [40]
  obtain ⟨-, refused, -, unchanged⟩ := next 3 [50]
  exact ⟨chain, inheritance, sampleClass_inside, nothing, answers, same, refused, unchanged _ refused⟩

end Dispatcher

end Descent
