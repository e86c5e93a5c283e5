import BeanDispatch.ClassTable.Call
import BeanDispatch.Proofs.SearchOrder

/-! Default bodies. If neither a class nor its superclasses have a body for a method, a call runs
the default body of the first interface in the order of the method search. This is the nearest
interface that has one, and it is reached without passing by another one that has one. An interface
that refines another may override its default body, and the override runs wherever the refined
interface is reached only through it or from farther away. It does not run where a class names the
refined interface as well, and first: both are then equally near. -/

namespace BeanDispatch

/-- An interface that has a body for the method. -/
def ClassDef.hasDefault (d : ClassDef) (name : String) (params : List TypeName) : Bool :=
  d.isInterface && (d.body? name params).isSome

namespace ClassTable

variable {t : ClassTable} {d i : ClassDef} {cls name : String} {params : List TypeName}

/-- The interface whose default body a call on an instance of the class runs, unless a class has a
body. -/
def defaultSource? (t : ClassTable) (cls name : String) (params : List TypeName) :
    Option ClassDef :=
  (t.supertypes cls).find? fun d => d.hasDefault name params

theorem findSome?_body? (listed : List ClassDef) :
    ((listed.filter ClassDef.isInterface).findSome? fun d => d.body? name params) =
      (listed.find? fun d => d.hasDefault name params).bind fun d => d.body? name params := by
  induction listed with
  | nil => rfl
  | cons first rest ih =>
    rw [List.filter_cons, List.find?_cons, ClassDef.hasDefault]
    cases first.isInterface with
    | false => exact ih
    | true =>
      rw [if_pos rfl, List.findSome?_cons, Bool.true_and]
      cases isBody : first.body? name params with
      | none => exact ih
      | some body => exact isBody.symm

/-- Without a body in a class, a call runs what the source has. -/
theorem body?_eq_of_none (without : ∀ d ∈ t.superclassChain cls, d.body? name params = none) :
    t.body? cls name params =
      (t.defaultSource? cls name params).bind fun d => d.body? name params := by
  rw [body?, List.findSome?_eq_none_iff.2 without, Option.none_or, findSome?_body?]
  rfl

theorem defaultSource?_eq_some (source : t.defaultSource? cls name params = some i) :
    i.hasDefault name params = true ∧
      ∃ position, (t.supertypes cls)[position]? = some i ∧
        ∀ (place : Nat) (d : ClassDef), (t.supertypes cls)[place]? = some d →
          d.hasDefault name params = true → position ≤ place := by
  obtain ⟨has, position, inside, here, before⟩ := List.find?_eq_some_iff_getElem.1 source
  refine ⟨has, position, List.getElem?_eq_some_iff.2 ⟨inside, here⟩,
    fun place d placed isDefault => Nat.le_of_not_lt fun isBefore => ?_⟩
  obtain ⟨_, isThere⟩ := List.getElem?_eq_some_iff.1 placed
  have lacks := before place isBefore
  rw [isThere, isDefault] at lacks
  cases lacks

/-- Where no class has a body for a method, a call runs the default body of an interface that is
reached by interface clauses without passing by another interface with a default body; and no
interface with a default body is nearer. -/
theorem default_body_is_nearest (reached : t.Reachable)
    (without : ∀ d ∈ t.superclassChain cls, d.body? name params = none) :
    t.body? cls name params =
        ((t.defaultSource? cls name params).bind fun d => d.body? name params) ∧
      ∀ i, t.defaultSource? cls name params = some i →
        i.hasDefault name params = true ∧
        ∃ fewest, t.Route cls (fun d => d.hasDefault name params = true → d = i) fewest i ∧
          ∀ k, k.hasDefault name params = true →
            ∀ steps, t.Route cls (fun _ => True) steps k → fewest ≤ steps := by
  refine ⟨body?_eq_of_none without, fun i source => ?_⟩
  obtain ⟨has, position, here, first⟩ := defaultSource?_eq_some source
  obtain ⟨fewest, route, least⟩ := exists_shortest_route reached here
  refine ⟨has, fewest, route.mono fun d upTo isDefault => ?_, fun k isDefault steps other => ?_⟩
  · obtain ⟨place, within, isThere⟩ := upTo
    obtain rfl : place = position := Nat.le_antisymm within (first place d isThere isDefault)
    exact Option.some.inj (isThere.symm.trans here)
  · obtain ⟨place, isThere⟩ := List.mem_iff_getElem?.1 (other.mem_supertypes reached)
    exact least place k (first place k isThere isDefault) isThere _ steps other

end ClassTable

namespace Greetings

def hello : Signature := ⟨"hello", [], .named Builtin.string⟩

def greeter : ClassDef :=
  { ClassDef.ofInterface "Greeter" with
    methods := [⟨hello, some fun _ _ => return .ref (.str "hi")⟩] }

def polite : ClassDef :=
  { ClassDef.ofInterface "Polite" with
    interfaces := ["Greeter"]
    methods := [⟨hello, some fun _ _ => return .ref (.str "good day")⟩] }

/-- A guest is polite, and names the interface of all greeters once more. -/
def guest : ClassDef := { ClassDef.ofClass "Guest" with interfaces := ["Polite", "Greeter"] }

/-- A host names both interfaces as well, in the other order. -/
def host : ClassDef := { ClassDef.ofClass "Host" with interfaces := ["Greeter", "Polite"] }

def classes : ClassTable := ⟨host :: guest :: polite :: greeter :: ClassTable.builtin.defs⟩

theorem reachable_classes : classes.Reachable := by
  have withGreeter := ClassTable.Reachable.define .builtin (d := greeter) rfl
  have withPolite := withGreeter.define (d := polite) rfl
  exact (withPolite.define (d := guest) rfl).define (d := host) rfl

/-- A guest greets politely, since no way to the interface of greeters is shorter. -/
theorem default_body_is_nearest_guest :
    classes.body? "Guest" "hello" [] = polite.body? "hello" [] ∧
      ∃ fewest, classes.Route "Guest" (fun d => d.hasDefault "hello" [] = true → d = polite)
          fewest polite ∧
        ∀ steps, classes.Route "Guest" (fun _ => True) steps greeter → fewest ≤ steps := by
  have without : ∀ d ∈ classes.superclassChain "Guest", d.body? "hello" [] = none :=
    List.forall_mem_cons.2 ⟨rfl, List.forall_mem_cons.2 ⟨rfl, nofun⟩⟩
  have source : classes.defaultSource? "Guest" "hello" [] = some polite := rfl
  obtain ⟨runs, nearest⟩ := ClassTable.default_body_is_nearest reachable_classes without
  obtain ⟨_, fewest, route, least⟩ := nearest polite source
  rw [runs, source]
  exact ⟨rfl, fewest, route, least greeter rfl⟩

/-- A host greets like any greeter although it is polite as well, since it names the interface of
all greeters first. -/
theorem greeter_shadows_polite :
    classes.Reachable ∧ (∀ d ∈ classes.superclassChain "Host", d.body? "hello" [] = none) ∧
      classes.defaultSource? "Host" "hello" [] = some greeter ∧
      classes.body? "Host" "hello" [] = greeter.body? "hello" [] ∧
      polite ∈ classes.supertypes "Host" ∧ polite.hasDefault "hello" [] = true ∧
      classes.isSubtype "Polite" "Greeter" = true ∧ polite ≠ greeter := by
  have listed : classes.supertypes "Host" =
      [host, .ofClass Builtin.object, greeter, polite] := rfl
  have without : ∀ d ∈ classes.superclassChain "Host", d.body? "hello" [] = none :=
    List.forall_mem_cons.2 ⟨rfl, List.forall_mem_cons.2 ⟨rfl, nofun⟩⟩
  have differ : polite ≠ greeter := fun same => absurd (congrArg ClassDef.name same) (by decide)
  refine ⟨reachable_classes, without, rfl, rfl, ?_, rfl, by decide, differ⟩
  rw [listed]
  simp

end Greetings

end BeanDispatch
