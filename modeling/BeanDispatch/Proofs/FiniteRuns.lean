import BeanDispatch.Proofs.AcceptedCode
import BeanDispatch.Proofs.StackSafety

/-! Finite runs. Code whose branches all lead forward ends within as many steps as it has
instructions, since every step comes at least one address farther. A branch table only asks that a
branch lead inside, so it also accepts code that repeats itself, and such code need not end: a run
that does not takes, from wherever it comes by, sooner or later another branch that does not lead
forward. Emitted code has none. -/

namespace BeanDispatch

namespace Machine

/-- A run of the whole code has ended like this after so many steps. -/
def EndsWithin (t : ClassTable) (index : UInt32) (call : Call) (code : Array Instruction) (h : Heap)
    (steps : Nat) (ended : Except Fault Completion × Heap) : Prop :=
  ∀ fuel, steps ≤ fuel → run t index call code fuel 0 [] h = (some <$> ended.1, ended.2)

/-- The run takes a branch here that does not lead forward. -/
def BranchesBack (t : ClassTable) (index : UInt32) (call : Call) (code : Array Instruction)
    (a : Configuration) : Prop :=
  ∃ b target, code[a.address]? = some (.branchFalse target) ∧ target.toNat ≤ a.address ∧
    Moves t index call code a b ∧ b.address = target.toNat

variable {t : ClassTable} {index : UInt32} {call : Call} {code : Array Instruction} {h : Heap}
  {a b c : Configuration} {steps more n : Nat} {ended : Except Fault Completion × Heap}

theorem Moves.forward_or_branchesBack (moves : Moves t index call code a b) :
    a.address < b.address ∨ BranchesBack t index call code a := by
  cases moves with
  | goOn => exact .inl (Nat.lt_succ_self _)
  | @jump address target stack next h after i here steps =>
    rcases Nat.lt_or_ge address target.toNat with further | back
    · exact .inl further
    · obtain ⟨rfl, _⟩ := step_jump steps
      exact .inr ⟨_, target, here, back, .jump here steps, rfl⟩

/-- Where every branch leads forward, so does every instruction. -/
theorem Moves.forward (moves : Moves t index call code a b)
    (forward : ∀ (address : Nat) target, code[address]? = some (.branchFalse target) →
      address < target.toNat) : a.address < b.address :=
  moves.forward_or_branchesBack.resolve_right fun ⟨_, target, here, back, _⟩ =>
    Nat.not_lt.2 back (forward a.address target here)

/-! ### Where a run ends -/

theorem ended_ne_none (ended : Except Fault Completion × Heap) (h : Heap) :
    (some <$> ended.1, ended.2) ≠ (.ok none, h) := by
  intro same
  rcases ended with ⟨fault | completion, after⟩
  · cases same
  · cases same

theorem Stops.exists_ended {result : Except Fault (Option Completion) × Heap}
    (stops : Stops t index call code c result) :
    ∃ ended : Except Fault Completion × Heap, result = (some <$> ended.1, ended.2) := by
  cases stops with
  | outside => exact ⟨(.error _, _), rfl⟩
  | fails => exact ⟨(.error _, _), rfl⟩
  | done => exact ⟨(.ok _, _), rfl⟩

theorem Stops.not_moves {result : Except Fault (Option Completion) × Heap}
    (stops : Stops t index call code a result) : ¬ Moves t index call code a b := by
  intro moves
  have stopped := run_of_stops stops 0
  obtain ⟨ended, rfl⟩ := stops.exists_ended
  rw [run_of_moves moves] at stopped
  exact ended_ne_none ended b.heap stopped.symm

theorem EndsWithin.mono (ends : EndsWithin t index call code h steps ended) (fewer : steps ≤ more) :
    EndsWithin t index call code h more ended :=
  fun fuel enough => ends fuel (Nat.le_trans fewer enough)

theorem endsWithin_of_stops (within : ReachesIn t index call code ⟨0, [], h⟩ n c)
    (stops : Stops t index call code c (some <$> ended.1, ended.2)) :
    EndsWithin t index call code h (n + 1) ended := by
  intro fuel enough
  obtain ⟨left, rfl⟩ : ∃ left, fuel = left + 1 + n := ⟨fuel - n - 1, by omega⟩
  exact (run_of_reachesIn within (left + 1)).trans (run_of_stops stops left)

theorem EndsWithin.exists_stops (ends : EndsWithin t index call code h steps ended) :
    ∃ c, Reaches t index call code ⟨0, [], h⟩ c ∧
      Stops t index call code c (some <$> ended.1, ended.2) := by
  have ran := ends steps (Nat.le_refl steps)
  rcases run_cases t index call code ⟨0, [], h⟩ steps with ⟨_, c, _, within, stops⟩ | ⟨c, _, on⟩
  · dsimp only at stops
    rw [ran] at stops
    exact ⟨c, within.reaches, stops⟩
  · exact absurd (ran.symm.trans on) (ended_ne_none ended c.heap)

theorem EndsWithin.runToEnd_eq (ends : EndsWithin t index call code h steps ended)
    (few : steps ≤ allowance code) : runToEnd t index call code h = ended := by
  have ran := ends (allowance code) few
  rcases ended with ⟨fault | completion, after⟩
  · exact Action.bind_apply_error _ ran
  · exact Action.bind_apply_ok _ ran

/-! ### Runs that never end -/

/-- A run through self-contained code never ends exactly if it goes on to branch back from wherever
it comes by. -/
theorem never_ends_iff (contained : SelfContained code.toList) (h : Heap) :
    (∀ steps ended, ¬ EndsWithin t index call code h steps ended) ↔
      ∀ a, Reaches t index call code ⟨0, [], h⟩ a →
        ∃ b, Reaches t index call code a b ∧ BranchesBack t index call code b := by
  constructor
  · intro never a reaches
    by_contra none
    have forward : ∀ b c, Reaches t index call code a b → Moves t index call code b c →
        b.address < c.address := fun b c further moves =>
      moves.forward_or_branchesBack.resolve_right fun back => none ⟨b, further, back⟩
    obtain ⟨c, further, stops | far⟩ := run_stops forward code.size
    · obtain ⟨n, within⟩ := exists_reachesIn (reaches.trans further)
      obtain ⟨ended, same⟩ := stops.exists_ended
      rw [same] at stops
      exact never (n + 1) ended (endsWithin_of_stops within stops)
    · have inside := contained.inside_of_reaches (reaches.trans further)
      omega
  · intro again steps ended ends
    obtain ⟨c, reaches, stops⟩ := ends.exists_stops
    obtain ⟨b, further, _, _, _, _, moves, _⟩ := again c reaches
    rcases further.cases_head with rfl | ⟨d, first, _⟩
    · exact stops.not_moves moves
    · exact stops.not_moves first

/-- Self-contained code whose branches lead forward ends within as many steps as it has
instructions. -/
theorem exists_endsWithin_size (contained : SelfContained code.toList)
    (forward : ∀ (address : Nat) target, code[address]? = some (.branchFalse target) →
      address < target.toNat) (t : ClassTable) (index : UInt32) (call : Call) (h : Heap) :
    ∃ ended, EndsWithin t index call code h code.size ended := by
  rcases run_cases t index call code ⟨0, [], h⟩ code.size with
    ⟨n, c, before, within, stops⟩ | ⟨c, within, _⟩
  · obtain ⟨ended, same⟩ := stops.exists_ended
    rw [same] at stops
    exact ⟨ended, (endsWithin_of_stops within stops).mono before⟩
  · have far := within.forward fun _ _ _ moves => moves.forward forward
    have inside := contained.inside_of_reaches within.reaches
    dsimp only at far
    omega

end Machine

/-- Emitted code has no branch that does not lead forward. -/
theorem Catalog.branches_forward {c : Catalog} {options : EmitOptions} {s : RoutineSet}
    (emitted : c.emit options = .ok s) {kind : RoutineKind} {index : UInt32}
    {code : Array Instruction} (runs : s.codeFor? kind index = some code) (address : Nat)
    (target : UInt16) (branches : code[address]? = some (.branchFalse target)) :
    address < target.toNat := by
  rw [← Array.getElem?_toList] at branches
  exact ((keepsStack_of_emit emitted runs).forward address target branches).1

/-- Runs of accepted code end unless they branch back again and again: a run never ends exactly if it
goes on, from wherever it comes by, to a branch that it takes and that does not lead forward. Where
every branch leads forward, a run ends within as many steps as the code has instructions. All code of
a routine that a catalog emits is like that, so a dispatch through it ends as its run does. -/
theorem Routine.finishes_unless_branching_back {kind : RoutineKind} {cases : List Case} {r : Routine}
    (accepted : assemble kind cases = .ok r) (t : ClassTable) (index : UInt32) (call : Call)
    (h : Heap) :
    ((∀ steps ended, ¬ Machine.EndsWithin t index call (r.codeFor index) h steps ended) ↔
      ∀ a, Machine.Reaches t index call (r.codeFor index) ⟨0, [], h⟩ a →
        ∃ b, Machine.Reaches t index call (r.codeFor index) a b ∧
          Machine.BranchesBack t index call (r.codeFor index) b) ∧
    ((∀ (address : Nat) target, (r.codeFor index)[address]? = some (.branchFalse target) →
        address < target.toNat) →
      ∃ ended,
        Machine.EndsWithin t index call (r.codeFor index) h (r.codeFor index).size ended) ∧
    ∀ (c : Catalog) options s, c.emit options = .ok s → s.routine? kind = some r →
      Machine.EndsWithin t index call (r.codeFor index) h (r.codeFor index).size
        (s.execute t kind index call h) := by
  have contained := selfContained_codeFor accepted index
  refine ⟨Machine.never_ends_iff contained h,
    fun forward => Machine.exists_endsWithin_size contained forward t index call h,
    fun c options s emitted present => ?_⟩
  have runs : s.codeFor? kind index = some (r.codeFor index) := by
    rw [RoutineSet.codeFor?, present, Option.map_some]
  obtain ⟨ended, ends⟩ := Machine.exists_endsWithin_size contained
    (Catalog.branches_forward emitted runs) t index call h
  rw [RoutineSet.execute_eq runs, ends.runToEnd_eq (Nat.le_add_right _ _)]
  exact ends

namespace Polling

variable {t : ClassTable} {target : Value} {arguments : Arguments}

/-- With interception off, a run is back where it started after two steps. -/
theorem comes_back (h : Heap) :
    Machine.ReachesIn t 0 ⟨target, arguments, false⟩ code ⟨0, [], h⟩ 2 ⟨0, [], h⟩ := by
  have asks : Machine.Moves t 0 ⟨target, arguments, false⟩ code ⟨0, [], h⟩
      ⟨1, [.bool false], h⟩ := .goOn rfl rfl
  have jumps : Machine.Moves t 0 ⟨target, arguments, false⟩ code ⟨1, [.bool false], h⟩
      ⟨(0 : UInt16).toNat, [], h⟩ := .jump rfl rfl
  exact .tail (.tail .refl asks) jumps

theorem run_off (h : Heap) : ∀ fuel,
    Machine.run t 0 ⟨target, arguments, false⟩ code fuel 0 [] h = (.ok none, h)
  | 0 => rfl
  | 1 => rfl
  | fuel + 2 => (Machine.run_of_reachesIn (comes_back h) fuel).trans (run_off h fuel)

theorem not_endsWithin_off (h : Heap) (steps : Nat) (ended : Except Fault Completion × Heap) :
    ¬ Machine.EndsWithin t 0 ⟨target, arguments, false⟩ code h steps ended := by
  intro ends
  have ran := ends steps (Nat.le_refl steps)
  rw [run_off] at ran
  exact Machine.ended_ne_none ended h ran.symm

/-- The case is accepted, no native body is called, and with interception off no number of steps
brings it to an end. -/
theorem accepted_runs_forever :
    Routine.assemble .dispatch [⟨0, code⟩] = .ok routine ∧
      ∀ steps, Machine.run .builtin 0 ⟨.null, .multi [], false⟩ (routine.codeFor 0) steps 0 []
        .empty = (.ok none, .empty) :=
  ⟨assembled, run_off .empty⟩

/-- Asks once whether interception is on and ends with null, whatever the answer is. -/
def askingOnce : Array Instruction := #[.loadInterceptable, .branchFalse 2, .pushNull, .ret]

theorem branches_forward_askingOnce (address : Nat) (target : UInt16)
    (branches : askingOnce[address]? = some (.branchFalse target)) : address < target.toNat := by
  rcases address with _ | _ | _ | _ | _ <;> cases branches
  decide

/-- The case that polls branches back again and again while interception is off; one that asks only
once branches forward and ends within four steps. The case of an intercepted method that a catalog
emits branches forward too, and ends as the dispatch does. -/
theorem finishes_unless_branching_back_polling :
    Routine.assemble .dispatch [⟨0, code⟩] = .ok routine ∧
      (∀ a, Machine.Reaches .builtin 0 ⟨.null, .multi [], false⟩ code ⟨0, [], .empty⟩ a →
        ∃ b, Machine.Reaches .builtin 0 ⟨.null, .multi [], false⟩ code a b ∧
          Machine.BranchesBack .builtin 0 ⟨.null, .multi [], false⟩ code b) ∧
      Routine.assemble .dispatch [⟨0, askingOnce⟩] = .ok ⟨.dispatch, #[⟨0, askingOnce⟩]⟩ ∧
      (∃ ended, Machine.EndsWithin .builtin 0 ⟨.null, .multi [], false⟩ askingOnce .empty 4 ended) ∧
      ∃ s r, Counter.catalog.emit {} = .ok s ∧ s.routine? .dispatch = some r ∧
        (∃ target, (r.codeFor 3)[1]? = some (.branchFalse target)) ∧
        ∀ call h, Machine.EndsWithin Counter.classes 3 call (r.codeFor 3) h (r.codeFor 3).size
          (s.execute Counter.classes .dispatch 3 call h) := by
  obtain ⟨repeats, _⟩ := Routine.finishes_unless_branching_back assembled .builtin 0
    ⟨.null, .multi [], false⟩ .empty
  have once : Routine.assemble .dispatch [⟨0, askingOnce⟩] = .ok ⟨.dispatch, #[⟨0, askingOnce⟩]⟩ :=
    rfl
  obtain ⟨_, ends, _⟩ := Routine.finishes_unless_branching_back once .builtin 0
    ⟨.null, .multi [], false⟩ .empty
  refine ⟨assembled, repeats.1 (not_endsWithin_off .empty), once,
    ends branches_forward_askingOnce, ?_⟩
  obtain ⟨s, r, emitted, present, accepted, branches⟩ : ∃ s r, Counter.catalog.emit {} = .ok s ∧
      s.routine? .dispatch = some r ∧ Routine.assemble .dispatch r.cases.toList = .ok r ∧
      ∃ target, (r.codeFor 3)[1]? = some (.branchFalse target) := ⟨_, _, rfl, rfl, rfl, _, rfl⟩
  refine ⟨s, r, emitted, present, branches, fun call h => ?_⟩
  obtain ⟨_, _, dispatches⟩ := Routine.finishes_unless_branching_back accepted Counter.classes 3
    call h
  exact dispatches _ _ s emitted present

end Polling

end BeanDispatch
