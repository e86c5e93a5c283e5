import BeanDispatch.Proofs.CaseCode
import BeanDispatch.Proofs.StackShape

/-! Accepted code. What a branch table accepts, be it emitted or written by hand, ends its case and
jumps only to addresses that it has, and so does the code for an index without a case. That is all a
run needs to stay inside the code: an instruction that goes on is not the last one, and a branch
leads inside. So a run ends at an instruction, by a return, by a search, with the fault for unknown
indices or with another fault of the instruction, however often the code branches back on the way.
The faults of a run as a whole are no faults of an instruction, and only a native body can fail with
one of them. -/

namespace BeanDispatch

theorem Routine.selfContained_codeFor {kind : RoutineKind} {cases : List Case} {r : Routine}
    (accepted : assemble kind cases = .ok r) (index : UInt32) :
    SelfContained (r.codeFor index).toList := by
  rw [codeFor]
  cases found : r.case? index with
  | none => exact Emission.selfContained_default
  | some c =>
    obtain ⟨noDefect, rfl⟩ := assemble_eq_ok_iff.1 accepted
    exact .of_no_defect ((ascending_of_no_defect noDefect).2.2 c (mem_of_bisect found).1)

/-! ### Where a run comes by -/

namespace SelfContained

open Machine

variable {t : ClassTable} {index : UInt32} {call : Call} {code : Array Instruction}
  {a b : Configuration} {h : Heap}

theorem inside_of_moves (contained : SelfContained code.toList)
    (moves : Moves t index call code a b) : b.address < code.size := by
  cases moves with
  | goOn here steps =>
    have continues := (Moves.goOn here steps).isTerminal here
    rw [← Array.getElem?_toList] at here
    exact contained.lt_length_of_getElem? here continues
  | jump here steps =>
    rw [(step_jump steps).1, ← Array.getElem?_toList] at here
    exact contained.inside _ (List.mem_of_getElem? here)

/-- Wherever a run comes by, there is an instruction. -/
theorem inside_of_reaches (contained : SelfContained code.toList)
    (reaches : Reaches t index call code ⟨0, [], h⟩ a) : a.address < code.size :=
  reaches.preserves (fun _ _ _ moves => contained.inside_of_moves moves) contained.length_pos

end SelfContained

/-! ### Faults of a run as a whole -/

/-- The faults of a run as a whole: the code was left without a result, or the run was cut off. -/
def Fault.endsRun : Fault → Bool
  | .operand (.noResult _) => true
  | .unfinished _ => true
  | _ => false

theorem Fault.blamesCode_of_endsRun {fault : Fault} (ends : fault.endsRun = true) :
    fault.blamesCode = true := by
  unfold endsRun at ends
  split at ends
  · rfl
  · rfl
  · cases ends

namespace Action

variable {raised : Fault → Heap → Prop} {h : Heap} {α : Type}

/-- What fails without blame on the code does not fail as a whole run either. -/
theorem Clean.sparesRun {expected : α → Prop} {x : Action Fault α}
    (clean : x.Clean Fault.blamesCode raised expected h) :
    x.Clean Fault.endsRun raised expected h :=
  clean.mono (fun _ => Fault.blamesCode_of_endsRun) fun _ _ => id

end Action

namespace Machine

variable {t : ClassTable} {index : UInt32} {call : Call} {raised : Fault → Heap → Prop} {h : Heap}

theorem popSlot_sparesRun (stack : Stack) :
    (Action.ofExcept (popSlot stack)).Clean Fault.endsRun raised (fun _ => True) h := by
  cases stack with
  | nil => exact .throw rfl
  | cons slot rest => exact .pure trivial

theorem popReference_sparesRun (stack : Stack) :
    (Action.ofExcept (popReference stack)).Clean Fault.endsRun raised (fun _ => True) h := by
  refine .ofExcept (fun _ _ => trivial) fun fault fails => ?_
  match stack, fails with
  | [], fails | .bool _ :: _, fails | .int _ :: _, fails | .long _ :: _, fails
  | .double _ :: _, fails =>
    cases fails
    rfl

theorem popArguments_sparesRun (n : Nat) (stack : Stack) :
    (Action.ofExcept (popArguments n stack)).Clean Fault.endsRun raised (fun _ => True) h := by
  rw [popArguments]
  split
  · exact .pure trivial
  · exact .throw rfl

theorem singleArgument_sparesRun (arguments : Arguments) :
    (Action.ofExcept (singleArgument arguments)).Clean Fault.endsRun raised (fun _ => True) h := by
  cases arguments with
  | single value => exact .pure trivial
  | multi values => exact .throw rfl

theorem positionalArgument_sparesRun (position : UInt16) (arguments : Arguments) :
    (Action.ofExcept (positionalArgument position arguments)).Clean Fault.endsRun raised
      (fun _ => True) h := by
  cases arguments with
  | single value => exact .throw rfl
  | multi values =>
    rw [positionalArgument]
    cases values[position.toNat]? with
    | none => exact .throw rfl
    | some value => exact .pure trivial

/-- No instruction has a fault of a whole run, unless the body that it calls failed with it. -/
theorem step_sparesRun (stack : Stack) (i : Instruction) (h : Heap) :
    (step t index call stack i).Clean Fault.endsRun (CallFails t stack h i) (fun _ => True) h := by
  cases i with
  | loadTarget | loadInterceptable | pushNull => exact .pure trivial
  | unknownIndex => exact .throw rfl
  | loadArgument => exact (singleArgument_sparesRun call.arguments).bind fun _ _ _ _ => .pure trivial
  | loadPositional position =>
    exact (positionalArgument_sparesRun position call.arguments).bind fun _ _ _ _ => .pure trivial
  | checkCast type =>
    apply (popReference_sparesRun stack).bind
    rintro ⟨value, rest⟩ _ _ _
    exact (ClassTable.cast_clean value type).sparesRun.bind fun _ _ _ _ => .pure trivial
  | instanceOf type =>
    exact (popReference_sparesRun stack).bind fun _ _ _ _ => .pure trivial
  | ret => exact (popReference_sparesRun stack).bind fun _ _ _ _ => .pure trivial
  | resolve owner name params =>
    exact (ClassTable.requiredMethod_clean owner name params).sparesRun.bind fun _ _ _ _ =>
      .pure trivial
  | branchFalse target =>
    apply (popSlot_sparesRun stack).bind
    rintro ⟨slot, rest⟩ _ _ _
    cases slot with
    | bool on =>
      cases on with
      | true => exact .pure trivial
      | false => exact .pure trivial
    | _ => exact .throw rfl
  | box primitive =>
    apply (popSlot_sparesRun stack).bind
    rintro ⟨slot, rest⟩ _ _ _
    dsimp only
    split
    · exact .pure trivial
    · exact .throw rfl
  | getField owner name type =>
    apply (popReference_sparesRun stack).bind
    rintro ⟨value, rest⟩ _ _ _
    apply (fieldOwner_clean owner name value).sparesRun.bind
    intro ref _ _ _
    apply (Action.Clean.field? ref name).bind
    intro found _ _ _
    cases found with
    | some slot => exact .pure trivial
    | none => exact .throw rfl
  | putField owner name type =>
    apply (popSlot_sparesRun stack).bind
    rintro ⟨slot, rest⟩ _ _ _
    apply (popReference_sparesRun rest).bind
    rintro ⟨value, rest⟩ _ _ _
    apply (fieldOwner_clean owner name value).sparesRun.bind
    intro ref _ _ _
    apply (Action.Clean.store ref name slot).bind
    intro stored _ _ _
    cases stored with
    | true => exact .pure trivial
    | false => exact .throw rfl
  | invoke callKind owner method =>
    apply (popArguments_sparesRun method.arity stack).bind
    rintro ⟨args, rest⟩ _ arguments _
    obtain rfl : h = _ := congrArg Prod.snd arguments
    apply (popReference_sparesRun rest).bind
    rintro ⟨receiver, left⟩ _ target _
    obtain rfl : h = _ := congrArg Prod.snd target
    have raises : ∀ fault after, t.Ran method receiver args h (.error fault) after →
        CallFails t stack h (.invoke callKind owner method) fault after := fun _ _ ran =>
      .body (congrArg Prod.fst arguments) (congrArg Prod.fst target) ran
    apply (ClassTable.invoke_clean callKind owner method receiver args raises).sparesRun.bind
    intro result _ _ _
    cases result with
    | some slot => exact .pure trivial
    | none => exact .pure trivial

/-! ### How a run ends -/

/-- How a run ends at an instruction: a return and a search complete the case, the instruction for
unknown indices has the fault that it is for, and any instruction can fail. -/
inductive Ends (t : ClassTable) (index : UInt32) (call : Call) (c : Configuration) :
    Instruction → Except Fault (Option Completion) × Heap → Prop
  | returns {value : Value} {rest : Stack} (top : c.stack = .ref value :: rest) :
    Ends t index call c .ret (.ok (some (.value value)), c.heap)
  | resolves {owner name : String} {params : ParameterList} {method : LocatedMethod}
    (found : t.requiredMethod owner name params = .ok method) :
    Ends t index call c (.resolve owner name params) (.ok (some (.method method)), c.heap)
  | unknown : Ends t index call c .unknownIndex (.error (.unknownIndex index), c.heap)
  | fails {i : Instruction} {fault : Fault} {after : Heap} (other : i ≠ .unknownIndex)
    (steps : step t index call c.stack i c.heap = (.error fault, after)) :
    Ends t index call c i (.error fault, after)

variable {code : Array Instruction} {c : Configuration}

theorem ends_of_done {i : Instruction} {completion : Completion} {after : Heap}
    (steps : step t index call c.stack i c.heap = (.ok (.done completion), after)) :
    Ends t index call c i (.ok (some completion), after) := by
  cases step_leads steps with
  | returns isReturn =>
    subst isReturn
    obtain ⟨⟨value, rest⟩, pops, goes⟩ := (Action.quiet_ofExcept _).exists_of_bind_apply steps
    cases goes
    exact .returns (popReference_ok (congrArg Prod.fst pops))
  | resolves isSearch =>
    subst isSearch
    obtain ⟨method, found, goes⟩ := (Action.quiet_ofExcept _).exists_of_bind_apply steps
    cases goes
    exact .resolves (congrArg Prod.fst found)

theorem ends_of_stops {ended : Except Fault (Option Completion) × Heap}
    (inside : c.address < code.size) (stops : Stops t index call code c ended) :
    ∃ i, code[c.address]? = some i ∧ Ends t index call c i ended := by
  cases stops with
  | outside none => exact absurd inside (Nat.not_lt.2 (Array.getElem?_eq_none_iff.1 none))
  | @fails i fault after here steps =>
    refine ⟨i, here, ?_⟩
    by_cases isUnknown : i = .unknownIndex
    · subst isUnknown
      cases steps
      exact .unknown
    · exact .fails isUnknown steps
  | done here steps => exact ⟨_, here, ends_of_done steps⟩

/-- A run through self-contained code is still under way after all its steps, or has ended at an
instruction before. -/
theorem run_ends (contained : SelfContained code.toList) (h : Heap) (steps : Nat) :
    (∃ c, ReachesIn t index call code ⟨0, [], h⟩ steps c ∧
      run t index call code steps 0 [] h = (.ok none, c.heap)) ∨
    ∃ n c i, n < steps ∧ ReachesIn t index call code ⟨0, [], h⟩ n c ∧
      code[c.address]? = some i ∧ Ends t index call c i (run t index call code steps 0 [] h) := by
  rcases run_cases t index call code ⟨0, [], h⟩ steps with ⟨n, c, before, within, stops⟩ | on
  · obtain ⟨i, here, ends⟩ := ends_of_stops (contained.inside_of_reaches within.reaches) stops
    exact .inr ⟨n, c, i, before, within, here, ends⟩
  · exact .inl on

theorem run_sparesRun (contained : SelfContained code.toList) (h : Heap) (steps : Nat)
    {fault : Fault} {after : Heap}
    (fails : run t index call code steps 0 [] h = (.error fault, after))
    (endsRun : fault.endsRun = true) : CalleeFailed t index call code h fault after := by
  rcases run_ends contained h steps with ⟨c, _, ran⟩ | ⟨_, c, i, _, within, here, ends⟩
  · rw [ran] at fails
    cases fails
  · rw [fails] at ends
    cases ends with
    | unknown => cases endsRun
    | fails _ steps =>
      have clean := @step_sparesRun t index call c.stack i c.heap
      exact ⟨c, i, within.reaches, here, clean.2 _ _ steps endsRun⟩

/-- A run of the whole code fails for leaving it only if a body that it called failed so. -/
theorem runToEnd_noResult (contained : SelfContained code.toList) {h after : Heap} {other : UInt32}
    (fails : runToEnd t index call code h = (.error (.operand (.noResult other)), after)) :
    CalleeFailed t index call code h (.operand (.noResult other)) after := by
  rcases Action.cases_of_bind_apply_error fails with stops | ⟨completion, _, _, goes⟩
  · exact run_sparesRun contained h _ stops rfl
  · cases completion with
    | none => cases goes
    | some completion => cases goes

end Machine

/-- What a branch table accepts never falls off its code: every branch in the code of an index, with
a case or without, leads to an instruction. Wherever a run comes by, there is an instruction; after
any number of steps the run is under way or has ended at an instruction that it came by; and neither
it nor a dispatch has the fault that a case ended without a result, unless it came by a call whose
body failed with it. -/
theorem Routine.accepted_never_falls_off {kind : RoutineKind} {cases : List Case} {r : Routine}
    (accepted : assemble kind cases = .ok r) (index : UInt32) :
    (∀ target, .branchFalse target ∈ (r.codeFor index).toList →
      target.toNat < (r.codeFor index).size) ∧
    ∀ t call h,
      (∀ c, Machine.Reaches t index call (r.codeFor index) ⟨0, [], h⟩ c →
        c.address < (r.codeFor index).size) ∧
      (∀ steps,
        (∃ c, Machine.ReachesIn t index call (r.codeFor index) ⟨0, [], h⟩ steps c ∧
          Machine.run t index call (r.codeFor index) steps 0 [] h = (.ok none, c.heap)) ∨
        ∃ n c i, n < steps ∧
          Machine.ReachesIn t index call (r.codeFor index) ⟨0, [], h⟩ n c ∧
          (r.codeFor index)[c.address]? = some i ∧
          Machine.Ends t index call c i
            (Machine.run t index call (r.codeFor index) steps 0 [] h)) ∧
      ∀ other after,
        (∀ steps, Machine.run t index call (r.codeFor index) steps 0 [] h =
            (.error (.operand (.noResult other)), after) →
          Machine.CalleeFailed t index call (r.codeFor index) h (.operand (.noResult other))
            after) ∧
        ∀ s : RoutineSet, s.routine? kind = some r →
          s.execute t kind index call h = (.error (.operand (.noResult other)), after) →
          Machine.CalleeFailed t index call (r.codeFor index) h (.operand (.noResult other))
            after := by
  have contained := selfContained_codeFor accepted index
  refine ⟨contained.inside, fun t call h => ⟨fun c => contained.inside_of_reaches,
    Machine.run_ends contained h, fun other after => ⟨fun steps fails => ?_, fun s present => ?_⟩⟩⟩
  · exact Machine.run_sparesRun contained h steps fails rfl
  · rw [RoutineSet.execute, present]
    exact Machine.runToEnd_noResult contained

namespace Polling

/-- Asks whether interception is on until it is, and ends with null then. -/
def code : Array Instruction := #[.loadInterceptable, .branchFalse 0, .pushNull, .ret]

def routine : Routine := ⟨.dispatch, #[⟨0, code⟩]⟩

theorem assembled : Routine.assemble .dispatch [⟨0, code⟩] = .ok routine := rfl

/-- The branch leads back, and yet no run leaves the four instructions; with interception on, the run
is at the return within four steps. -/
theorem accepted_never_falls_off_polling :
    Routine.assemble .dispatch [⟨0, code⟩] = .ok routine ∧ routine.codeFor 0 = code ∧
      (∀ t call h c, Machine.Reaches t 0 call code ⟨0, [], h⟩ c → c.address < 4) ∧
      ∃ n c, n < 4 ∧
        Machine.ReachesIn .builtin 0 ⟨.null, .multi [], true⟩ code ⟨0, [], .empty⟩ n c ∧
        code[c.address]? = some .ret := by
  have isCode : routine.codeFor 0 = code := rfl
  have inside := (Routine.accepted_never_falls_off assembled 0).2
  rw [isCode] at inside
  refine ⟨assembled, isCode, fun t call h => (inside t call h).1, ?_⟩
  have completes : Machine.run .builtin 0 ⟨.null, .multi [], true⟩ code 4 0 [] .empty =
      (.ok (some (.value .null)), .empty) := rfl
  rcases (inside .builtin ⟨.null, .multi [], true⟩ .empty).2.1 4 with
    ⟨_, _, ran⟩ | ⟨n, c, i, before, within, here, ends⟩
  · rw [completes] at ran
    cases ran
  · rw [completes] at ends
    have isReturn : i = .ret := by
      generalize Heap.empty = after at ends
      cases ends
      rfl
    exact ⟨n, c, before, within, here.trans (congrArg some isReturn)⟩

end Polling

end BeanDispatch
