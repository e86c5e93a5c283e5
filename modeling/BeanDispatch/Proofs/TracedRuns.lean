import BeanDispatch.Proofs.FiniteRuns
import BeanDispatch.Proofs.LabelPatching
import BeanDispatch.Proofs.TraceLines
import Mathlib.Data.List.Chain

/-! Traced runs. A trace follows the run that it records: `Retraces` says which instructions are
executed from a configuration on, each with the call and the branch that were recorded for it, and a
traced run ends as the run does, with their events in front of those seen before. The executed
instructions are those of the configurations that the run comes by, in that order. Emitted code has
no more than 65535 instructions and is never left, so no recorded address is cut off, and the lines
of the instructions are lines of the listing. `Recounts` collects what the lines of a trace say about
the run, and `Frames` what its first and its last line say, in the full form and in the short one. -/

namespace BeanDispatch

/-- An instruction that was executed, with the call and the branch recorded for it. -/
structure TracedStep where
  position : Nat
  instruction : Instruction
  call? : Option Event
  jump? : Option UInt16

namespace TracedStep

/-- Where the run goes on if it does. -/
def next (s : TracedStep) : Nat := (s.jump?.map UInt16.toNat).getD (s.position + 1)

def events (s : TracedStep) : List Event :=
  .instruction s.position.toUInt16 s.instruction :: s.call?.toList ++ (s.jump?.map .jump).toList

/-- The lines of a step: the instruction at its position, the call, the target of the branch. -/
def lines (label : Ref → String) (s : TracedStep) : List String :=
  codeLine s.position s.instruction :: (s.call?.map (Event.line label)).toList ++
    (s.jump?.map fun target => "      -> " ++ twoDigits target.toNat).toList

theorem map_events (label : Ref → String) {s : TracedStep} (fits : s.position < 65536) :
    s.events.map (Event.line label) = s.lines label := by
  have address : s.position.toUInt16.toNat = s.position := UInt16.toNat_ofNat_of_lt fits
  cases call : s.call? <;> cases jump : s.jump? <;>
    simp [events, lines, call, jump, Event.line, address]

end TracedStep

namespace Machine

/-- Where an instruction branches to if it does. -/
def branch? : Stack → Instruction → Option UInt16
  | .bool false :: _, .branchFalse target => some target
  | _, _ => none

/-- What is recorded of an instruction that is executed in a configuration. -/
def Configuration.tracedStep (a : Configuration) (i : Instruction) : TracedStep :=
  ⟨a.address, i, callEvent? a.stack i, branch? a.stack i⟩

variable {t : ClassTable} {index : UInt32} {call : Call} {code : Array Instruction}

theorem branch?_branches {stack : Stack} {i : Instruction} {target : UInt16}
    (taken : branch? stack i = some target) :
    i = .branchFalse target ∧ ∃ rest, stack = .bool false :: rest := by
  unfold branch? at taken
  split at taken
  · cases taken
    exact ⟨rfl, _, rfl⟩
  · cases taken

theorem step_of_branch? {stack : Stack} {i : Instruction} {target : UInt16}
    (taken : branch? stack i = some target) (h : Heap) :
    ∃ rest, step t index call stack i h = (.ok (.jump target rest), h) := by
  obtain ⟨rfl, rest, rfl⟩ := branch?_branches taken
  exact ⟨rest, rfl⟩

theorem callEvent?_invoke {stack : Stack} {i : Instruction} {e : Event}
    (recorded : callEvent? stack i = some e) :
    ∃ kind owner method, i = .invoke kind owner method ∧ e = .call owner method := by
  cases i with
  | invoke kind owner method =>
    simp only [callEvent?] at recorded
    split at recorded
    · split at recorded
      · cases recorded
        exact ⟨kind, owner, method, rfl, rfl⟩
      · cases recorded
    · cases recorded
  | _ => cases recorded

theorem branch?_eq_none {stack : Stack} {i : Instruction} {h : Heap}
    (straight : ∀ target rest after,
      step t index call stack i h ≠ (.ok (.jump target rest), after)) :
    branch? stack i = none := by
  cases taken : branch? stack i with
  | none => rfl
  | some target =>
    obtain ⟨rest, jumps⟩ := step_of_branch? taken h
    exact absurd jumps (straight target rest h)

theorem branch?_of_goOn {stack next : Stack} {i : Instruction} {h after : Heap}
    (steps : step t index call stack i h = (.ok (.goOn next), after)) : branch? stack i = none :=
  branch?_eq_none fun _ _ _ jumps => by cases steps.symm.trans jumps

theorem branch?_of_jump {target : UInt16} {stack next : Stack} {i : Instruction} {h after : Heap}
    (steps : step t index call stack i h = (.ok (.jump target next), after)) :
    branch? stack i = some target := by
  obtain ⟨rfl, rfl, _⟩ := step_jump steps
  rfl

theorem Moves.address_eq_next {a b : Configuration} {i : Instruction}
    (moves : Moves t index call code a b) (here : code[a.address]? = some i) :
    b.address = (a.tracedStep i).next := by
  cases moves with
  | goOn alsoHere steps =>
    cases here.symm.trans alsoHere
    rw [Configuration.tracedStep, branch?_of_goOn steps]
    rfl
  | jump alsoHere steps =>
    cases here.symm.trans alsoHere
    rw [Configuration.tracedStep, branch?_of_jump steps]
    rfl

theorem branch?_of_stays {a : Configuration} {i : Instruction} (here : code[a.address]? = some i)
    (stays : ∀ b, ¬ Moves t index call code a b) : branch? a.stack i = none :=
  branch?_eq_none fun _ _ _ jumps => stays _ (.jump here jumps)

/-- The instructions that are executed from a configuration on, at most so many. -/
inductive Retraces (t : ClassTable) (index : UInt32) (call : Call) (code : Array Instruction) :
    Nat → Configuration → List TracedStep → Prop
  | cut {a : Configuration} : Retraces t index call code 0 a []
  | outside {fuel : Nat} {a : Configuration} (none : code[a.address]? = none) :
    Retraces t index call code (fuel + 1) a []
  | ends {fuel : Nat} {a : Configuration} {i : Instruction} (here : code[a.address]? = some i)
    (stays : ∀ b, ¬ Moves t index call code a b) :
    Retraces t index call code (fuel + 1) a [a.tracedStep i]
  | moves {fuel : Nat} {a b : Configuration} {i : Instruction} {steps : List TracedStep}
    (here : code[a.address]? = some i) (moves : Moves t index call code a b)
    (rest : Retraces t index call code fuel b steps) :
    Retraces t index call code (fuel + 1) a (a.tracedStep i :: steps)

/-! ### What a traced run records -/

theorem bind_apply {α β : Type} {x : StateM Heap α} {h after : Heap} {a : α}
    (ran : x h = (a, after)) (f : α → StateM Heap β) : (x >>= f) h = f a after := by
  show StateT.bind x f h = _
  rw [StateT.bind, ran]
  rfl

/-- How a traced run continues after an instruction at `address`. -/
def traceNext (t : ClassTable) (index : UInt32) (call : Call) (code : Array Instruction)
    (fuel address : Nat) (seen : List Event) :
    Except Fault Next → StateM Heap (List Event × Except Fault (Option Completion))
  | .ok (.goOn stack) => trace t index call code fuel (address + 1) stack seen
  | .ok (.jump target stack) =>
    trace t index call code fuel target.toNat stack (.jump target :: seen)
  | .ok (.done completion) => return (seen, .ok (some completion))
  | .error fault => return (seen, .error fault)

theorem trace_succ {address : Nat} {i : Instruction} (here : code[address]? = some i) (fuel : Nat)
    (stack : Stack) (seen : List Event) (h : Heap) :
    trace t index call code (fuel + 1) address stack seen h =
      traceNext t index call code fuel address
        ((callEvent? stack i).toList ++ .instruction address.toUInt16 i :: seen)
        (step t index call stack i h).1 (step t index call stack i h).2 := by
  rw [trace]
  simp only [here]
  rcases steps : step t index call stack i h with ⟨fault | next, after⟩
  · exact bind_apply steps _
  · refine (bind_apply steps _).trans ?_
    cases next <;> rfl

/-- The events of an instruction, in front of those that its successors record. -/
theorem reverse_events (a : Configuration) (i : Instruction) (later : List Event) :
    ((a.tracedStep i).events ++ later).reverse =
      later.reverse ++ ((branch? a.stack i).map Event.jump).toList ++
        ((callEvent? a.stack i).toList ++ [.instruction a.address.toUInt16 i]) := by
  rw [Configuration.tracedStep, TracedStep.events]
  cases callEvent? a.stack i <;> cases branch? a.stack i <;> simp

/-- A traced run is the run. In front of the events seen before, it records those of the executed
instructions, the latest first. -/
theorem trace_eq (t : ClassTable) (index : UInt32) (call : Call) (code : Array Instruction)
    (fuel : Nat) (a : Configuration) (seen : List Event) :
    ∃ steps, Retraces t index call code fuel a steps ∧
      trace t index call code fuel a.address a.stack seen a.heap =
        (((steps.flatMap TracedStep.events).reverse ++ seen,
          (run t index call code fuel a.address a.stack a.heap).1),
          (run t index call code fuel a.address a.stack a.heap).2) := by
  -- What an instruction records is among what its successors have seen.
  induction fuel generalizing a seen with
  | zero => exact ⟨[], .cut, rfl⟩
  | succ fuel ih =>
    rcases moves_or_stops t index call code a with ⟨b, moves⟩ | ⟨ended, stops⟩
    · cases moves with
      | @goOn address stack next h after i here steps =>
        obtain ⟨later, retraces, same⟩ := ih ⟨address + 1, next, after⟩
          ((callEvent? stack i).toList ++ .instruction address.toUInt16 i :: seen)
        refine ⟨_, .moves here (.goOn here steps) retraces, ?_⟩
        rw [trace_succ here, run_of_moves (.goOn here steps), steps, List.flatMap_cons,
          reverse_events, branch?_of_goOn steps]
        refine same.trans ?_
        simp
      | @jump address target stack next h after i here steps =>
        obtain ⟨later, retraces, same⟩ := ih ⟨target.toNat, next, after⟩
          (.jump target ::
            ((callEvent? stack i).toList ++ .instruction address.toUInt16 i :: seen))
        refine ⟨_, .moves here (.jump here steps) retraces, ?_⟩
        rw [trace_succ here, run_of_moves (.jump here steps), steps, List.flatMap_cons,
          reverse_events, branch?_of_jump steps]
        refine same.trans ?_
        simp
    · rw [run_of_stops stops]
      have stays : ∀ b, ¬ Moves t index call code a b := fun b => stops.not_moves
      cases stops with
      | outside none =>
        refine ⟨[], .outside none, ?_⟩
        rw [trace]
        simp only [none]
        rfl
      | fails here steps | done here steps =>
        refine ⟨_, .ends here stays, ?_⟩
        rw [trace_succ here, steps, List.flatMap_cons, reverse_events, branch?_of_stays here stays]
        simp [traceNext]
        rfl

/-! ### What the executed instructions are -/

namespace Retraces

variable {fuel : Nat} {a : Configuration} {steps : List TracedStep}

/-- The executed instructions are those of the configurations that the run comes by, as far as there
is code and as many as were allowed. -/
theorem getElem?_iff (retraces : Retraces t index call code fuel a steps) (n : Nat)
    (s : TracedStep) :
    steps[n]? = some s ↔ n < fuel ∧ ∃ b i, ReachesIn t index call code a n b ∧
      code[b.address]? = some i ∧ s = b.tracedStep i := by
  induction retraces generalizing n with
  | cut => simp
  | @outside fuel a none =>
    refine iff_of_false (by simp) ?_
    rintro ⟨_, b, i, within, here, rfl⟩
    cases n with
    | zero =>
      cases within
      cases here.symm.trans none
    | succ n =>
      obtain ⟨_, moves, _⟩ := reachesIn_succ_iff.1 within
      cases moves with
      | goOn here | jump here => cases here.symm.trans none
  | @ends fuel a i here stays =>
    cases n with
    | zero => simp [reachesIn_zero_iff, here, eq_comm]
    | succ n =>
      refine iff_of_false (by simp) ?_
      rintro ⟨_, c, _, within, _⟩
      obtain ⟨b, moves, _⟩ := reachesIn_succ_iff.1 within
      exact stays b moves
  | @moves fuel a b i steps here moves rest ih =>
    cases n with
    | zero => simp [reachesIn_zero_iff, here, eq_comm]
    | succ n =>
      have first : ∀ c, (∃ b, Moves t index call code a b ∧ ReachesIn t index call code b n c) ↔
          ReachesIn t index call code b n c := fun c =>
        ⟨fun ⟨_, other, within⟩ => moves.unique other ▸ within, fun within => ⟨b, moves, within⟩⟩
      rw [List.getElem?_cons_succ, ih, Nat.succ_lt_succ_iff]
      simp only [reachesIn_succ_iff, first]

theorem exists_of_mem (retraces : Retraces t index call code fuel a steps) {s : TracedStep}
    (member : s ∈ steps) :
    ∃ (b : Configuration) (i : Instruction), code[b.address]? = some i ∧ s = b.tracedStep i := by
  obtain ⟨n, found⟩ := List.mem_iff_getElem?.1 member
  obtain ⟨_, b, i, _, here, recorded⟩ := (retraces.getElem?_iff n s).1 found
  exact ⟨b, i, here, recorded⟩

theorem isChain (retraces : Retraces t index call code fuel a steps) :
    steps.IsChain fun s later => later.position = s.next := by
  induction retraces with
  | cut | outside => exact .nil
  | ends => exact .singleton _
  | moves here moves rest ih =>
    refine List.isChain_cons.2 ⟨fun s first => ?_, ih⟩
    rw [← moves.address_eq_next here]
    cases rest with
    | cut | outside => cases first
    | ends | moves =>
      cases first
      rfl

/-- A run that only goes forward and stays inside the code ends at an instruction. -/
theorem jump?_getLast (retraces : Retraces t index call code fuel a steps)
    (inside : ∀ b, Reaches t index call code a b → b.address < code.size)
    (forward : ∀ b c, Reaches t index call code a b → Moves t index call code b c →
      b.address < c.address) (enough : code.size ≤ a.address + fuel) :
    ∃ s ∈ steps.getLast?, s.jump? = none := by
  induction retraces with
  | cut => exact absurd (inside _ .refl) (by omega)
  | outside none => exact absurd (inside _ .refl) (by simpa using none)
  | ends here stays => exact ⟨_, rfl, branch?_of_stays here stays⟩
  | moves here moves rest ih =>
    have further := forward _ _ .refl moves
    obtain ⟨s, last, none⟩ := ih (fun c reaches => inside c (.head moves reaches))
      (fun c d reaches => forward c d (.head moves reaches)) (by omega)
    exact ⟨s, List.mem_getLast?_cons last, none⟩

end Retraces

end Machine

/-! ### The size of emitted code -/

namespace Emission

theorem size_of_assembleCase {index : UInt32} {d : Draft} {found : Case}
    (assembled : assembleCase index d = .ok found) : found.code.size ≤ Draft.maxAddress := by
  rw [assembleCase] at assembled
  cases code : d.assemble with
  | error e =>
    rw [code] at assembled
    cases assembled
  | ok lines =>
    rw [code] at assembled
    cases assembled
    rw [(Draft.patched_of_assemble code).size]
    exact (Draft.assemble_ok code).1

theorem size_of_mem {α : Type} {kind : RoutineKind} {offers : List (UInt32 × α)}
    {draft : UInt32 → α → Except EmitError Draft} {r : Routine}
    (emitted : routineOf kind offers draft = .ok (some r)) {found : Case}
    (member : found ∈ r.cases.toList) : found.code.size ≤ Draft.maxAddress := by
  obtain ⟨offer, _, cased⟩ := exists_offer_of_mem emitted member
  obtain ⟨d, _, assembled⟩ := Checked.bind_eq_ok.1 cased
  exact size_of_assembleCase assembled

end Emission

namespace Catalog

variable {c : Catalog} {options : EmitOptions} {s : RoutineSet} {kind : RoutineKind}
  {index : UInt32} {code : Array Instruction}

/-- Every address of emitted code fits an instruction. -/
theorem size_codeFor?_le (emitted : c.emit options = .ok s)
    (runs : s.codeFor? kind index = some code) : code.size ≤ 65535 := by
  obtain ⟨r, present, rfl⟩ := Option.map_eq_some_iff.1 runs
  rw [Routine.codeFor]
  cases found : r.case? index with
  | none => decide
  | some here =>
    have member := (Routine.mem_of_bisect found).1
    obtain ⟨many, single, search⟩ := emit_routines emitted
    cases kind with
    | dispatch => exact Emission.size_of_mem (many.trans (congrArg _ present)) member
    | dispatchOne => exact Emission.size_of_mem (single.trans (congrArg _ present)) member
    | targetMethod =>
      cases locator : options.locator with
      | true => exact Emission.size_of_mem ((search locator).trans (congrArg _ present)) member
      | false => cases ((emit_options emitted).2 locator).symm.trans present

end Catalog

/-! ### The lines of a trace -/

namespace Machine

theorem kind_of_mem_events {a : Configuration} {i : Instruction} {e : Event}
    (member : e ∈ (a.tracedStep i).events) :
    e.kind = .instruction ∨ e.kind = .call ∨ e.kind = .jump := by
  simp only [Configuration.tracedStep, TracedStep.events, List.cons_append, List.mem_cons,
    List.mem_append, Option.mem_toList, Option.map_eq_some_iff] at member
  rcases member with rfl | recorded | ⟨target, _, rfl⟩
  · exact .inl rfl
  · obtain ⟨_, _, _, _, rfl⟩ := callEvent?_invoke recorded
    exact .inr (.inl rfl)
  · exact .inr (.inr rfl)

theorem filter_events (a : Configuration) (i : Instruction) :
    ((a.tracedStep i).events.filter fun e => e.kind = .instruction) =
      [.instruction a.address.toUInt16 i] := by
  rw [Configuration.tracedStep, TracedStep.events]
  cases called : callEvent? a.stack i with
  | none => cases branch? a.stack i <;> simp [Event.kind]
  | some e =>
    obtain ⟨_, _, _, _, rfl⟩ := callEvent?_invoke called
    cases branch? a.stack i <;> simp [Event.kind]

namespace Retraces

variable {t : ClassTable} {index : UInt32} {call : Call} {code : Array Instruction} {fuel : Nat}
  {a : Configuration} {steps : List TracedStep}

theorem position_lt (retraces : Retraces t index call code fuel a steps)
    (small : code.size ≤ 65535) : ∀ s ∈ steps, s.position < 65536 := by
  intro s member
  obtain ⟨b, i, here, rfl⟩ := retraces.exists_of_mem member
  have within : b.address < code.size := (Array.getElem?_eq_some_iff.1 here).1
  exact Nat.lt_succ_of_le (within.le.trans small)

theorem isOutcome_of_mem (retraces : Retraces t index call code fuel a steps) {e : Event}
    (member : e ∈ steps.flatMap TracedStep.events) : e.kind.isOutcome = false := by
  obtain ⟨s, executed, recorded⟩ := List.mem_flatMap.1 member
  obtain ⟨b, i, _, rfl⟩ := retraces.exists_of_mem executed
  rcases kind_of_mem_events recorded with kind | kind | kind <;> rw [kind] <;> rfl

theorem traceLines_eq (retraces : Retraces t index call code fuel a steps)
    (small : code.size ≤ 65535) (label : Ref → String) :
    traceLines label .verbose (steps.flatMap TracedStep.events) =
      steps.flatMap (TracedStep.lines label) := by
  rw [traceLines_verbose, List.map_flatMap]
  exact List.flatMap_congr fun s member => s.map_events label (retraces.position_lt small s member)

/-- The lines of instructions are those that the listing has for the code where they stand. -/
theorem listed (retraces : Retraces t index call code fuel a steps) (small : code.size ≤ 65535)
    (label : Ref → String) (result : Except Fault Completion) (kind : RoutineKind) (found : Bool) :
    ((traceLines label .verbose (.enter kind index found :: steps.flatMap TracedStep.events ++
        [endEvent result])).filter fun line => LineKind.ofLine line = .instruction).map some =
      steps.map fun s => (RoutineSet.codeLines code)[s.position]? := by
  have outside : (endEvent result).kind ≠ .instruction := by
    cases result <;> simp [endEvent, Event.kind]
  have inner : (steps.flatMap TracedStep.events).filter (fun e => e.kind = .instruction) =
      steps.map fun s => .instruction s.position.toUInt16 s.instruction := by
    rw [List.filter_flatMap, List.map_eq_flatMap]
    refine List.flatMap_congr fun s member => ?_
    obtain ⟨b, i, _, rfl⟩ := retraces.exists_of_mem member
    exact filter_events b i
  rw [traceLines_verbose]
  refine (congrArg _ (filter_line label (fun kind => kind = .instruction) _)).trans ?_
  rw [List.filter_append, List.filter_cons_of_neg (by simp [Event.kind]), inner,
    List.filter_cons_of_neg (by simpa using outside), List.filter_nil, List.append_nil,
    List.map_map, List.map_map]
  refine List.map_congr_left fun s member => ?_
  -- The event has the address in 16 bits, the listing has it as it is.
  have fits : s.position.toUInt16.toNat = s.position :=
    UInt16.toNat_ofNat_of_lt (retraces.position_lt small s member)
  obtain ⟨b, i, here, rfl⟩ := retraces.exists_of_mem member
  refine Eq.trans ?_ (RoutineSet.getElem?_codeLines here).symm
  exact congrArg (fun address => some (codeLine address i)) fits

end Retraces

/-- The lines of a trace recount a run of `code`, whose executed instructions are `steps`. -/
structure Recounts (t : ClassTable) (index : UInt32) (call : Call) (code : Array Instruction)
    (h : Heap) (label : Ref → String) (steps : List TracedStep) (lines : List String) : Prop where
  between : ∃ entry outcome,
    lines = entry :: steps.flatMap (TracedStep.lines label) ++ [outcome]
  listed : ((lines.filter fun line => LineKind.ofLine line = .instruction).map some) =
    steps.map fun s => (RoutineSet.codeLines code)[s.position]?
  executed : ∀ n s, steps[n]? = some s ↔ ∃ b i, ReachesIn t index call code ⟨0, [], h⟩ n b ∧
    code[b.address]? = some i ∧ s = b.tracedStep i
  starts : steps.head?.map TracedStep.position = some 0
  connected : steps.IsChain fun s later => later.position = s.next
  branches : ∀ s ∈ steps, ∀ target ∈ s.jump?, s.instruction = .branchFalse target
  calls : ∀ s ∈ steps, ∀ e ∈ s.call?, ∃ kind owner method,
    s.instruction = .invoke kind owner method ∧ e = .call owner method
  ends : ∃ s ∈ steps.getLast?, s.jump? = none

end Machine

namespace RoutineSet

variable {s : RoutineSet} {kind : RoutineKind} {index : UInt32}

/-- A trace begins with the entry of a routine and ends with the outcome of the run, which is
reported nowhere else. -/
structure Frames (s : RoutineSet) (kind : RoutineKind) (index : UInt32) (label : Ref → String)
    (result : Except Fault Completion) (lines : List String) : Prop where
  entry : lines.head? = some (kind.text ++ " #" ++ toString index.toNat ++
    if (s.case? kind index).isSome then "" else " (default)")
  completes : ∀ completion, result = .ok completion →
    lines.getLast? = some ("  => " ++ completion.text label)
  fails : ∀ fault, result = .error fault → lines.getLast? = some ("  !! " ++ fault.message label)
  completion_iff : (∃ last ∈ lines.getLast?, LineKind.ofLine last = .completion) ↔
    ∃ completion, result = .ok completion
  fault_iff : (∃ last ∈ lines.getLast?, LineKind.ofLine last = .fault) ↔
    ∃ fault, result = .error fault
  once : ∀ line ∈ lines.dropLast, (LineKind.ofLine line).isOutcome = false

theorem traceLines_entered (label : Ref → String) (verbosity : Verbosity) (events : List Event)
    (result : Except Fault Completion) (found : Bool) :
    traceLines label verbosity (.enter kind index found :: events ++ [Machine.endEvent result]) =
      (Event.enter kind index found).line label :: traceLines label verbosity events ++
        [(Machine.endEvent result).line label] := by
  have entry : (Event.enter kind index found).shown verbosity = true := by cases verbosity <;> rfl
  have outcome : (Machine.endEvent result).shown verbosity = true := by
    cases verbosity <;> cases result <;> rfl
  simp [traceLines, entry, outcome]

/-- Whatever happens in between, the entry and the outcome frame a trace. -/
theorem frames_of_events {events : List Event}
    (inner : ∀ e ∈ events, e.kind.isOutcome = false) (label : Ref → String)
    (verbosity : Verbosity) (result : Except Fault Completion) :
    s.Frames kind index label result (traceLines label verbosity
      (.enter kind index (s.case? kind index).isSome :: events ++ [Machine.endEvent result])) := by
  have last (lines : List String) (first : String) :
      (first :: lines ++ [(Machine.endEvent result).line label]).getLast? =
        some ((Machine.endEvent result).line label) := List.getLast?_concat
  rw [traceLines_entered]
  refine ⟨rfl, ?_, ?_, ?_, ?_, ?_⟩
  · rintro completion rfl
    exact last _ _
  · rintro fault rfl
    exact last _ _
  · rw [last]
    cases result <;> simp [Event.ofLine_line, Machine.endEvent, Event.kind]
  · rw [last]
    cases result <;> simp [Event.ofLine_line, Machine.endEvent, Event.kind]
  · rw [List.dropLast_concat]
    refine List.forall_mem_cons.2 ⟨by rw [Event.ofLine_line]; rfl, ?_⟩
    simp only [traceLines, List.mem_map, List.mem_filter]
    rintro _ ⟨e, ⟨member, _⟩, rfl⟩
    rw [Event.ofLine_line]
    exact inner e member

/-- A traced execution is the execution, recorded from its entry to its outcome. -/
theorem executeTraced_eq {code : Array Instruction} (runs : s.codeFor? kind index = some code)
    (t : ClassTable) (call : Call) (h : Heap) :
    ∃ steps, Machine.Retraces t index call code (Machine.allowance code) ⟨0, [], h⟩ steps ∧
      s.executeTraced t kind index call h =
        ((.enter kind index (s.case? kind index).isSome :: steps.flatMap TracedStep.events ++
            [Machine.endEvent (s.execute t kind index call h).1],
          (s.execute t kind index call h).1), (s.execute t kind index call h).2) := by
  obtain ⟨r, present, rfl⟩ := Option.map_eq_some_iff.1 runs
  rw [execute_eq runs, executeTraced, present, case?, present, Option.bind_some, Machine.runToEnd]
  dsimp only
  -- The number of steps is left open, so that it is not computed.
  generalize Machine.allowance (r.codeFor index) = fuel
  obtain ⟨steps, retraces, traced⟩ := Machine.trace_eq t index call (r.codeFor index) fuel
    ⟨0, [], h⟩ [.enter kind index (r.case? index).isSome]
  refine ⟨steps, retraces, ?_⟩
  have reversed (e : Event) :
      (e :: ((steps.flatMap TracedStep.events).reverse ++
        [.enter kind index (r.case? index).isSome])).reverse =
      .enter kind index (r.case? index).isSome :: steps.flatMap TracedStep.events ++ [e] := by simp
  rw [← reversed]
  rw [Machine.bind_apply traced]
  rcases ran : Machine.run t index call (r.codeFor index) fuel 0 [] h with
    ⟨fault | completion?, after⟩
  · rw [Action.bind_apply_error _ ran]
    rfl
  · rw [Action.bind_apply_ok _ ran]
    cases completion? <;> rfl

theorem executeTraced_of_absent (absent : s.codeFor? kind index = none) (t : ClassTable)
    (call : Call) (h : Heap) :
    s.executeTraced t kind index call h =
      (([.enter kind index (s.case? kind index).isSome,
          Machine.endEvent (s.execute t kind index call h).1],
        (s.execute t kind index call h).1), (s.execute t kind index call h).2) := by
  have noRoutine : s.routine? kind = none := Option.map_eq_none_iff.1 absent
  rw [executeTraced, execute, case?, noRoutine]
  rfl

end RoutineSet

namespace Catalog

variable {c : Catalog} {options : EmitOptions} {s : RoutineSet} {kind : RoutineKind}
  {index : UInt32} {t : ClassTable} {call : Call} {h : Heap}

/-- The executed instructions of emitted code are listed where they stand, and no address of theirs
is cut off. -/
theorem recounts_of_retraces (emitted : c.emit options = .ok s) {code : Array Instruction}
    (runs : s.codeFor? kind index = some code) {steps : List TracedStep}
    (retraces : Machine.Retraces t index call code (Machine.allowance code) ⟨0, [], h⟩ steps)
    (label : Ref → String) (result : Except Fault Completion) (found : Bool) :
    Machine.Recounts t index call code h label steps (traceLines label .verbose
      (.enter kind index found :: steps.flatMap TracedStep.events ++
        [Machine.endEvent result])) := by
  have contained := (keepsStack_of_emit emitted runs).toSelfContained
  have inside : ∀ b, Machine.Reaches t index call code ⟨0, [], h⟩ b → b.address < code.size :=
    fun b reaches => contained.inside_of_reaches reaches
  have forward : ∀ a b, Machine.Reaches t index call code ⟨0, [], h⟩ a →
      Machine.Moves t index call code a b → a.address < b.address :=
    fun _ _ _ moves => moves.forward (branches_forward emitted runs)
  have enough : code.size ≤ Machine.allowance code := Nat.le_add_right _ _
  have small := size_codeFor?_le emitted runs
  have executed : ∀ n s, steps[n]? = some s ↔ ∃ b i,
      Machine.ReachesIn t index call code ⟨0, [], h⟩ n b ∧ code[b.address]? = some i ∧
        s = b.tracedStep i := by
    intro n s
    rw [retraces.getElem?_iff]
    refine and_iff_right_of_imp ?_
    rintro ⟨b, _, within, _⟩
    have far := within.forward forward
    have near := inside b within.reaches
    dsimp only at far
    omega
  have starts : steps.head?.map TracedStep.position = some 0 := by
    obtain ⟨i, here⟩ : ∃ i, code[0]? = some i :=
      ⟨_, Array.getElem?_eq_getElem contained.length_pos⟩
    rw [List.head?_eq_getElem?, (executed 0 _).2 ⟨_, i, .refl, here, rfl⟩]
    rfl
  refine ⟨?_, retraces.listed small label result kind found, executed, starts, retraces.isChain,
    ?_, ?_, ?_⟩
  · rw [RoutineSet.traceLines_entered, retraces.traceLines_eq small]
    exact ⟨_, _, rfl⟩
  · intro s member target branches
    obtain ⟨b, i, _, rfl⟩ := retraces.exists_of_mem member
    exact (Machine.branch?_branches branches).1
  · intro s member e recorded
    obtain ⟨b, i, _, rfl⟩ := retraces.exists_of_mem member
    exact Machine.callEvent?_invoke recorded
  · exact retraces.jump?_getLast inside forward (by simpa using enough)

/-- A traced dispatch through emitted code is the dispatch. Both forms of its trace begin with the
entry of the routine, which tells whether the index has a case, and end with the outcome, which is
reported nowhere else. In between, the full form has the executed instructions one after another as
the listing has them under the header of the case, each with its call and its branch, and the short
form leaves out the lines of instructions and branches. -/
theorem emit_traces (emitted : c.emit options = .ok s) {after : Heap} {events : List Event}
    {result : Except Fault Completion}
    (traced : s.executeTraced t kind index call h = ((events, result), after))
    (label : Ref → String) :
    s.execute t kind index call h = (result, after) ∧
    (∀ verbosity, s.Frames kind index label result (traceLines label verbosity events)) ∧
    (s.codeFor? kind index = none →
      ∃ entry outcome, traceLines label .verbose events = [entry, outcome]) ∧
    (∀ code, s.codeFor? kind index = some code →
      (∃ above below, s.listing = String.join ((above ++
          RoutineSet.routineLines kind (s.routine? kind) ++ below).map fun line => line ++ "\n")) ∧
      (∃ before after, RoutineSet.routineLines kind (s.routine? kind) =
        before ++ s.codeHeader kind index :: RoutineSet.codeLines code ++ after) ∧
      ∃ steps, Machine.Recounts t index call code h label steps
        (traceLines label .verbose events)) ∧
    traceLines label .brief events = (traceLines label .verbose events).filter fun line =>
      !(LineKind.ofLine line).isStep := by
  cases runs : s.codeFor? kind index with
  | none =>
    rw [RoutineSet.executeTraced_of_absent runs] at traced
    cases traced
    exact ⟨rfl, fun verbosity =>
        RoutineSet.frames_of_events (List.forall_mem_nil _) label verbosity _,
      fun _ => ⟨_, _, rfl⟩, nofun, traceLines_brief label _⟩
  | some code =>
    obtain ⟨steps, retraces, recorded⟩ := RoutineSet.executeTraced_eq runs t call h
    rw [recorded] at traced
    cases traced
    refine ⟨rfl, fun verbosity => RoutineSet.frames_of_events (fun e => retraces.isOutcome_of_mem)
      label verbosity _, nofun, ?_, traceLines_brief label _⟩
    rintro _ ⟨⟩
    exact ⟨s.exists_listing kind, RoutineSet.exists_listed runs, steps,
      recounts_of_retraces emitted runs retraces label _ _⟩

end Catalog

namespace Counter

/-- An audited counter is called with interception off. -/
def skipping : Call := ⟨auditedCounter, .multi [.int 7], false⟩

def skippingTrace : List String :=
  ["dispatch #3", "  00  load.interceptable", "  01  if.false 12", "      -> 12",
    "  12  load.target", "  13  checkcast Counter", "  14  load.arg 0", "  15  checkcast int",
    "  16  invoke.virtual Counter.add(int): int", "  call Counter.add(int): int", "  17  box int",
    "  18  return", "  => 7"]

/-- The branch over the interceptor is taken, and the direct call returns its argument. -/
theorem emit_traces_skipping : ∃ s, catalog.emit {} = .ok s ∧ ∃ events result after,
    s.executeTraced classes .dispatch 3 skipping heap = ((events, result), after) ∧
      s.execute classes .dispatch 3 skipping heap = (result, after) ∧
      traceLines (fun _ => "counter") .verbose events = skippingTrace ∧
      traceLines (fun _ => "counter") .brief events =
        ["dispatch #3", "  call Counter.add(int): int", "  => 7"] := by
  obtain ⟨s, emitted⟩ : ∃ s, catalog.emit {} = .ok s := ⟨_, rfl⟩
  rcases traced : s.executeTraced classes .dispatch 3 skipping heap with ⟨⟨events, result⟩, after⟩
  have verbose : traceLines (fun _ => "counter") .verbose events = skippingTrace := by
    have shown : (catalog.emit {}).toOption.map (fun s => traceLines (fun _ => "counter") .verbose
        (s.executeTraced classes .dispatch 3 skipping heap).1.1) = some skippingTrace := by
      decide +kernel
    rw [emitted, Except.toOption, Option.map_some, traced] at shown
    exact Option.some.inj shown
  obtain ⟨executes, _, _, _, brief⟩ := Catalog.emit_traces emitted traced fun _ => "counter"
  refine ⟨s, emitted, events, result, after, traced, executes, verbose, ?_⟩
  rw [brief, verbose]
  decide +kernel

end Counter

end BeanDispatch
