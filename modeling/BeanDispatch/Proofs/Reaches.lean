import Mathlib.Logic.Relation
import BeanDispatch.Proofs.ForwardRun

/-! Where a run comes by. A configuration is an address, a stack and a heap; `Moves` is one
instruction that goes on or jumps, `ReachesIn` so many of them and `Reaches` any number. `Leads` says
what an instruction that does not fail leads to: only a branch on false jumps, and it takes the false
off the stack and nothing else; only a return and a search end the case. `run_cases` ties all of it
to `run`: a run stops at a configuration that it comes by in fewer steps than it was given, or it has
come as far as it was given steps. -/

namespace BeanDispatch.Machine

/-- Where a run stands: the address of the next instruction, the stack and the heap. -/
structure Configuration where
  address : Nat
  stack : Stack
  heap : Heap

variable {t : ClassTable} {index : UInt32} {call : Call} {code : Array Instruction}

/-- One instruction leads from a configuration to the next. -/
inductive Moves (t : ClassTable) (index : UInt32) (call : Call) (code : Array Instruction) :
    Configuration → Configuration → Prop
  | goOn {address : Nat} {stack next : Stack} {h after : Heap} {i : Instruction}
    (here : code[address]? = some i)
    (steps : step t index call stack i h = (.ok (.goOn next), after)) :
    Moves t index call code ⟨address, stack, h⟩ ⟨address + 1, next, after⟩
  | jump {address : Nat} {target : UInt16} {stack next : Stack} {h after : Heap} {i : Instruction}
    (here : code[address]? = some i)
    (steps : step t index call stack i h = (.ok (.jump target next), after)) :
    Moves t index call code ⟨address, stack, h⟩ ⟨target.toNat, next, after⟩

/-- Any number of instructions lead from a configuration to another. -/
abbrev Reaches (t : ClassTable) (index : UInt32) (call : Call) (code : Array Instruction) :
    Configuration → Configuration → Prop :=
  Relation.ReflTransGen (Moves t index call code)

/-- What every instruction preserves holds wherever a run comes by. -/
theorem Reaches.preserves {invariant : Configuration → Prop}
    (preserved : ∀ a b, invariant a → Moves t index call code a b → invariant b)
    {a b : Configuration} (initially : invariant a) (reaches : Reaches t index call code a b) :
    invariant b := by
  induction reaches with
  | refl => exact initially
  | tail _ moves ih => exact preserved _ _ ih moves

theorem run_of_moves {a b : Configuration} (moves : Moves t index call code a b) (fuel : Nat) :
    run t index call code (fuel + 1) a.address a.stack a.heap =
      run t index call code fuel b.address b.stack b.heap := by
  cases moves with
  | goOn here steps => rw [run_succ _ _ _ _ _ _ _ here, Action.bind_apply_ok _ steps]
  | jump here steps => rw [run_succ _ _ _ _ _ _ _ here, Action.bind_apply_ok _ steps]

/-- So many instructions lead from a configuration to another. -/
inductive ReachesIn (t : ClassTable) (index : UInt32) (call : Call) (code : Array Instruction)
    (a : Configuration) : Nat → Configuration → Prop
  | refl : ReachesIn t index call code a 0 a
  | tail {n : Nat} {b c : Configuration} (before : ReachesIn t index call code a n b)
    (moves : Moves t index call code b c) : ReachesIn t index call code a (n + 1) c

theorem ReachesIn.reaches {a b : Configuration} {n : Nat}
    (within : ReachesIn t index call code a n b) : Reaches t index call code a b := by
  induction within with
  | refl => exact .refl
  | tail _ moves ih => exact .tail ih moves

theorem exists_reachesIn {a b : Configuration} (reaches : Reaches t index call code a b) :
    ∃ n, ReachesIn t index call code a n b := by
  induction reaches with
  | refl => exact ⟨0, .refl⟩
  | tail _ moves ih =>
    obtain ⟨n, within⟩ := ih
    exact ⟨n + 1, .tail within moves⟩

theorem reachesIn_zero_iff {a b : Configuration} : ReachesIn t index call code a 0 b ↔ b = a := by
  constructor
  · rintro ⟨⟩
    rfl
  · rintro rfl
    exact .refl

/-- So many instructions and one more, the first of them told apart. -/
theorem reachesIn_succ_iff {a c : Configuration} {n : Nat} :
    ReachesIn t index call code a (n + 1) c ↔
      ∃ b, Moves t index call code a b ∧ ReachesIn t index call code b n c := by
  constructor
  · intro within
    induction n generalizing c with
    | zero =>
      cases within with
      | tail before moves =>
        cases before
        exact ⟨c, moves, .refl⟩
    | succ n ih =>
      cases within with
      | tail before moves =>
        obtain ⟨b, first, later⟩ := ih before
        exact ⟨b, first, .tail later moves⟩
  · rintro ⟨b, first, later⟩
    induction later with
    | refl => exact .tail .refl first
    | tail before moves ih => exact .tail ih moves

/-- A run from a configuration is a run from any configuration it reaches, with fewer steps left. -/
theorem run_of_reachesIn {a b : Configuration} {n : Nat}
    (within : ReachesIn t index call code a n b) (fuel : Nat) :
    run t index call code (fuel + n) a.address a.stack a.heap =
      run t index call code fuel b.address b.stack b.heap := by
  induction within generalizing fuel with
  | refl => rfl
  | tail _ moves ih => rw [← Nat.add_assoc, Nat.add_right_comm, ih, run_of_moves moves]

/-! ### What an instruction leads to -/

/-- Where an instruction goes on that does not fail, and the heap that it leaves. -/
inductive Leads (i : Instruction) (stack : Stack) (h : Heap) : Next → Heap → Prop
  | goOn {next : Stack} {after : Heap} (continues : i.isTerminal = false) :
    Leads i stack h (.goOn next) after
  | jump {target : UInt16} {next : Stack} (branches : i = .branchFalse target)
    (isFalse : stack = .bool false :: next) : Leads i stack h (.jump target next) h
  | returns {value : Value} {after : Heap} (isReturn : i = .ret) :
    Leads i stack h (.done (.value value)) after
  | resolves {owner name : String} {params : ParameterList} {method : LocatedMethod} {after : Heap}
    (isSearch : i = .resolve owner name params) : Leads i stack h (.done (.method method)) after

theorem step_leads {i : Instruction} {stack : Stack} {next : Next} {h after : Heap}
    (steps : step t index call stack i h = (.ok next, after)) : Leads i stack h next after := by
  cases i with
  | branchFalse address =>
    cases stack with
    | nil => cases steps
    | cons slot rest =>
      cases slot with
      | bool on =>
        cases on with
        | false =>
          cases steps
          exact .jump rfl rfl
        | true =>
          cases steps
          exact .goOn rfl
      | _ => cases steps
  | loadTarget | loadInterceptable | pushNull =>
    cases steps
    exact .goOn rfl
  | unknownIndex => cases steps
  | loadArgument | loadPositional =>
    obtain ⟨_, _, _, goes⟩ := Action.exists_of_bind_apply steps
    cases goes
    exact .goOn rfl
  | ret =>
    obtain ⟨⟨_, _⟩, _, _, goes⟩ := Action.exists_of_bind_apply steps
    cases goes
    exact .returns rfl
  | instanceOf =>
    obtain ⟨⟨_, _⟩, _, _, goes⟩ := Action.exists_of_bind_apply steps
    cases goes
    exact .goOn rfl
  | checkCast type =>
    obtain ⟨⟨_, _⟩, _, _, steps⟩ := Action.exists_of_bind_apply steps
    obtain ⟨_, _, _, goes⟩ := Action.exists_of_bind_apply steps
    cases goes
    exact .goOn rfl
  | resolve owner name params =>
    obtain ⟨_, _, _, goes⟩ := Action.exists_of_bind_apply steps
    cases goes
    exact .resolves rfl
  | box =>
    obtain ⟨⟨_, _⟩, _, _, goes⟩ := Action.exists_of_bind_apply steps
    dsimp only at goes
    split at goes
    · cases goes
      exact .goOn rfl
    · cases goes
  | invoke =>
    obtain ⟨⟨_, _⟩, _, _, steps⟩ := Action.exists_of_bind_apply steps
    obtain ⟨⟨_, _⟩, _, _, steps⟩ := Action.exists_of_bind_apply steps
    obtain ⟨result, _, _, goes⟩ := Action.exists_of_bind_apply steps
    cases result with
    | none =>
      cases goes
      exact .goOn rfl
    | some slot =>
      cases goes
      exact .goOn rfl
  | getField owner name type =>
    obtain ⟨⟨_, _⟩, _, _, steps⟩ := Action.exists_of_bind_apply steps
    obtain ⟨_, _, _, steps⟩ := Action.exists_of_bind_apply steps
    obtain ⟨result, _, _, goes⟩ := Action.exists_of_bind_apply steps
    cases result with
    | none => cases goes
    | some slot =>
      cases goes
      exact .goOn rfl
  | putField owner name type =>
    obtain ⟨⟨_, _⟩, _, _, steps⟩ := Action.exists_of_bind_apply steps
    obtain ⟨⟨_, _⟩, _, _, steps⟩ := Action.exists_of_bind_apply steps
    obtain ⟨_, _, _, steps⟩ := Action.exists_of_bind_apply steps
    obtain ⟨result, _, _, goes⟩ := Action.exists_of_bind_apply steps
    cases result with
    | false => cases goes
    | true =>
      cases goes
      exact .goOn rfl

theorem popReference_ok {stack rest : Stack} {value : Value}
    (pops : popReference stack = .ok (value, rest)) : stack = .ref value :: rest := by
  match stack, pops with
  | .ref _ :: _, rfl => rfl

theorem step_jump {i : Instruction} {target : UInt16} {stack next : Stack} {h after : Heap}
    (steps : step t index call stack i h = (.ok (.jump target next), after)) :
    i = .branchFalse target ∧ stack = .bool false :: next ∧ after = h := by
  cases step_leads steps with
  | jump branches isFalse => exact ⟨branches, isFalse, rfl⟩

theorem Moves.unique {a b c : Configuration} (one : Moves t index call code a b)
    (other : Moves t index call code a c) : b = c := by
  cases one with
  | goOn here steps =>
    cases other with
    | goOn alsoHere alsoSteps =>
      cases here.symm.trans alsoHere
      cases steps.symm.trans alsoSteps
      rfl
    | jump alsoHere alsoSteps =>
      cases here.symm.trans alsoHere
      cases steps.symm.trans alsoSteps
  | jump here steps =>
    cases other with
    | goOn alsoHere alsoSteps =>
      cases here.symm.trans alsoHere
      cases steps.symm.trans alsoSteps
    | jump alsoHere alsoSteps =>
      cases here.symm.trans alsoHere
      cases steps.symm.trans alsoSteps
      rfl

/-- Nothing comes after an instruction that ends the case. -/
theorem Moves.isTerminal {a b : Configuration} (moves : Moves t index call code a b)
    {i : Instruction} (here : code[a.address]? = some i) : i.isTerminal = false := by
  cases moves with
  | goOn alsoHere steps =>
    cases here.symm.trans alsoHere
    cases step_leads steps with
    | goOn continues => exact continues
  | jump alsoHere steps =>
    cases here.symm.trans alsoHere
    rw [(step_jump steps).1]
    rfl

theorem not_moves_ret {a b : Configuration} (here : code[a.address]? = some .ret) :
    ¬ Moves t index call code a b := by
  intro moves
  cases moves.isTerminal here

theorem Moves.address_succ {a b : Configuration} (moves : Moves t index call code a b)
    (straight : ∀ target, code[a.address]? ≠ some (.branchFalse target)) :
    b.address = a.address + 1 := by
  cases moves with
  | goOn => rfl
  | jump here steps =>
    rw [(step_jump steps).1] at here
    exact absurd here (straight _)

/-- How a run can stop at a configuration: behind the code, or with a fault or the completion of the
instruction there. -/
inductive Stops (t : ClassTable) (index : UInt32) (call : Call) (code : Array Instruction)
    (c : Configuration) : Except Fault (Option Completion) × Heap → Prop
  | outside (none : code[c.address]? = none) :
    Stops t index call code c (.error (.operand (.noResult index)), c.heap)
  | fails {i : Instruction} {fault : Fault} {after : Heap} (here : code[c.address]? = some i)
    (steps : step t index call c.stack i c.heap = (.error fault, after)) :
    Stops t index call code c (.error fault, after)
  | done {i : Instruction} {completion : Completion} {after : Heap}
    (here : code[c.address]? = some i)
    (steps : step t index call c.stack i c.heap = (.ok (.done completion), after)) :
    Stops t index call code c (.ok (some completion), after)

theorem run_of_stops {c : Configuration} {ended : Except Fault (Option Completion) × Heap}
    (stops : Stops t index call code c ended) (fuel : Nat) :
    run t index call code (fuel + 1) c.address c.stack c.heap = ended := by
  cases stops with
  | outside none =>
    have ran : run t index call code (fuel + 1) c.address c.stack =
        throw (.operand (.noResult index)) := by
      rw [run]
      generalize code[c.address]? = found at none ⊢
      subst none
      rfl
    rw [ran]
    rfl
  | fails here steps => rw [run_succ _ _ _ _ _ _ _ here, Action.bind_apply_error _ steps]
  | done here steps =>
    rw [run_succ _ _ _ _ _ _ _ here, Action.bind_apply_ok _ steps]
    rfl

/-- From every configuration a run moves on or stops. -/
theorem moves_or_stops (t : ClassTable) (index : UInt32) (call : Call) (code : Array Instruction)
    (c : Configuration) :
    (∃ d, Moves t index call code c d) ∨ ∃ ended, Stops t index call code c ended := by
  cases here : code[c.address]? with
  | none => exact .inr ⟨_, .outside here⟩
  | some i =>
    rcases steps : step t index call c.stack i c.heap with ⟨fault | next, after⟩
    · exact .inr ⟨_, .fails here steps⟩
    · cases next with
      | goOn stack => exact .inl ⟨_, .goOn here steps⟩
      | jump target stack => exact .inl ⟨_, .jump here steps⟩
      | done completion => exact .inr ⟨_, .done here steps⟩

/-- A run stops somewhere before it has used up its steps, or it has used them all up. -/
theorem run_cases (t : ClassTable) (index : UInt32) (call : Call) (code : Array Instruction)
    (a : Configuration) (fuel : Nat) :
    (∃ n c, n < fuel ∧ ReachesIn t index call code a n c ∧
        Stops t index call code c (run t index call code fuel a.address a.stack a.heap)) ∨
      ∃ c, ReachesIn t index call code a fuel c ∧
        run t index call code fuel a.address a.stack a.heap = (.ok none, c.heap) := by
  induction fuel with
  | zero => exact .inr ⟨a, .refl, rfl⟩
  | succ fuel ih =>
    rcases ih with ⟨n, c, before, within, stops⟩ | ⟨c, within, _⟩
    · refine .inl ⟨n, c, by omega, within, ?_⟩
      obtain ⟨left, rfl⟩ : ∃ left, fuel = left + 1 + n := ⟨fuel - n - 1, by omega⟩
      rw [run_of_reachesIn within] at stops
      rw [show left + 1 + n + 1 = left + 1 + 1 + n by omega, run_of_reachesIn within,
        run_of_stops stops]
      exact stops
    · have goes : run t index call code (fuel + 1) a.address a.stack a.heap =
          run t index call code 1 c.address c.stack c.heap := by
        rw [Nat.add_comm, run_of_reachesIn within]
      rw [goes]
      rcases moves_or_stops t index call code c with ⟨d, moves⟩ | ⟨ended, stops⟩
      · exact .inr ⟨d, .tail within moves, run_of_moves moves 0⟩
      · refine .inl ⟨fuel, c, Nat.lt_succ_self fuel, within, ?_⟩
        rw [run_of_stops stops 0]
        exact stops

/-- A run that only goes forward comes one address farther with every step. -/
theorem ReachesIn.forward {a b : Configuration} {n : Nat}
    (within : ReachesIn t index call code a n b)
    (forward : ∀ b c, Reaches t index call code a b → Moves t index call code b c →
      b.address < c.address) : a.address + n ≤ b.address := by
  induction within with
  | refl => exact Nat.le_refl _
  | tail before moves ih =>
    have further := forward _ _ before.reaches moves
    omega

/-- A run that only goes forward stops somewhere, or it has come as far as it was given steps. -/
theorem run_stops {a : Configuration}
    (forward : ∀ b c, Reaches t index call code a b → Moves t index call code b c →
      b.address < c.address) (fuel : Nat) :
    ∃ c, Reaches t index call code a c ∧
      (Stops t index call code c (run t index call code fuel a.address a.stack a.heap) ∨
        a.address + fuel ≤ c.address) := by
  rcases run_cases t index call code a fuel with ⟨n, c, _, within, stops⟩ | ⟨c, within, _⟩
  · exact ⟨c, within.reaches, .inl stops⟩
  · exact ⟨c, within.reaches, .inr (within.forward forward)⟩

/-- A run goes on from wherever one instruction that leaves the heap alone takes it. -/
theorem RunsTo.of_moves {address next : Nat} {stack left : Stack}
    {outcome : Action Fault Completion}
    (moves : ∀ h, Moves t index call code ⟨address, stack, h⟩ ⟨next, left, h⟩)
    (forward : address < next) (goes : RunsTo t index call code next left outcome) :
    RunsTo t index call code address stack outcome := by
  intro fuel enough
  obtain ⟨i, here⟩ : ∃ i, code[address]? = some i := by
    cases moves Heap.empty with
    | goOn here _ => exact ⟨_, here⟩
    | jump here _ => exact ⟨_, here⟩
  obtain ⟨remaining, rfl⟩ := exists_fuel here enough
  rw [← goes remaining (by omega)]
  exact funext fun h => run_of_moves (moves h) remaining

end BeanDispatch.Machine
