import BeanDispatch.Proofs.CaseCoverage
import BeanDispatch.Proofs.StackShape

/-! Emitted code keeps its stack. Code keeps its stack if every instruction, taken in the order in
which the code stands, can run on the shape that the ones before it leave, and if a branch leads
forward to a place that finds the same shape as the next instruction. From `step_clean` it follows
for whole runs, by induction on where a run comes by: no instruction runs twice, the stack always
has the shape that the address says, and no fault is to be blamed on the code. Every case that a
catalog emits keeps its stack: a call loads as many slots as it takes, and the two branches of an
intercepted case lead to the direct call with nothing on the stack. -/

namespace BeanDispatch

/-! ### Code that keeps its stack -/

/-- The shape after instructions, if each can run where it stands. -/
def shapeAfter (is : List Instruction) (shape : Shape) : Option Shape :=
  is.foldlM (fun shape i => i.effect? shape) shape

/-- The shape before the instruction at an address. -/
def shapeAt (code : List Instruction) (address : Nat) : Option Shape :=
  shapeAfter (code.take address) []

theorem shapeAfter_append (is js : List Instruction) (shape : Shape) :
    shapeAfter (is ++ js) shape = (shapeAfter is shape).bind (shapeAfter js) :=
  List.foldlM_append

theorem shapeAfter_cons (i : Instruction) (is : List Instruction) (shape : Shape) :
    shapeAfter (i :: is) shape = (i.effect? shape).bind (shapeAfter is) :=
  List.foldlM_cons

/-- Each instruction of the code can run on the shape before it, and is one that this kind of
dispatch may use. A branch leads forward, and like going on it leads to an empty stack. -/
structure KeepsStack (kind : RoutineKind) (code : List Instruction) : Prop
    extends SelfContained code where
  permitted : ∀ i ∈ code, kind.permits i = true
  balanced : shapeAfter code [] = some []
  forward : ∀ address target, code[address]? = some (.branchFalse target) →
    address < target.toNat ∧ shapeAt code (address + 1) = some [] ∧
      shapeAt code target.toNat = some []

namespace KeepsStack

variable {kind : RoutineKind} {code : List Instruction} {address : Nat} {i : Instruction}

theorem shapeAt_of_getElem? (keeps : KeepsStack kind code) (here : code[address]? = some i) :
    ∃ shape next, shapeAt code address = some shape ∧ i.effect? shape = some next ∧
      shapeAt code (address + 1) = some next := by
  obtain ⟨inside, isHere⟩ := List.getElem?_eq_some_iff.1 here
  have whole : code = code.take address ++ i :: code.drop (address + 1) := by
    rw [← isHere, ← List.drop_eq_getElem_cons inside, List.take_append_drop]
  have balanced := keeps.balanced
  rw [whole, shapeAfter_append] at balanced
  obtain ⟨shape, before, rest⟩ := Option.bind_eq_some_iff.1 balanced
  rw [shapeAfter_cons] at rest
  obtain ⟨next, effect, _⟩ := Option.bind_eq_some_iff.1 rest
  refine ⟨shape, next, before, effect, ?_⟩
  rw [shapeAt, List.take_add_one, here, shapeAfter_append, before]
  simp [shapeAfter, effect]

end KeepsStack

/-! ### Runs -/

/-- A run stands at an instruction with a stack of the shape before it. -/
structure Machine.Stands (code : Array Instruction) (c : Machine.Configuration) : Prop where
  inside : c.address < code.size
  fits : ∃ shape, shapeAt code.toList c.address = some shape ∧ shape.Fits c.stack

namespace KeepsStack

open Machine

variable {t : ClassTable} {kind : RoutineKind} {index : UInt32} {call : Call}
  {code : Array Instruction} {a b : Configuration} {h : Heap} {i : Instruction}

theorem stands_start (keeps : KeepsStack kind code.toList) (h : Heap) :
    Stands code ⟨0, [], h⟩ :=
  ⟨keeps.length_pos, [], rfl, .nil⟩

theorem step_stands (keeps : KeepsStack kind code.toList) (admits : kind.Admits call.arguments)
    (stands : Stands code a) (here : code[a.address]? = some i) :
    ∃ next, shapeAt code.toList (a.address + 1) = some next ∧
      (step t index call a.stack i).Clean Fault.blamesCode (CallFails t a.stack a.heap i)
        (NextFits kind i next) a.heap := by
  rw [← Array.getElem?_toList] at here
  obtain ⟨shape, next, before, effect, after⟩ := keeps.shapeAt_of_getElem? here
  obtain ⟨found, isFound, fits⟩ := stands.fits
  rw [before] at isFound
  cases isFound
  have permitted := keeps.permitted i (List.mem_of_getElem? here)
  exact ⟨next, after, step_clean permitted admits fits effect⟩

/-- An instruction leads forward, to a stack of the shape before the next one. -/
theorem stands_of_moves (keeps : KeepsStack kind code.toList)
    (admits : kind.Admits call.arguments) (stands : Stands code a)
    (moves : Moves t index call code a b) : Stands code b ∧ a.address < b.address := by
  cases moves with
  | goOn here steps =>
    obtain ⟨next, after, clean⟩ := keeps.step_stands admits stands here
    obtain ⟨continues, fits⟩ := clean.1 _ _ steps
    rw [← Array.getElem?_toList] at here
    exact ⟨⟨keeps.lt_length_of_getElem? here continues, next, after, fits⟩, Nat.lt_succ_self _⟩
  | jump here steps =>
    obtain ⟨next, after, clean⟩ := keeps.step_stands admits stands here
    obtain ⟨rfl, fits⟩ := clean.1 _ _ steps
    rw [← Array.getElem?_toList] at here
    obtain ⟨further, isEmpty, atTarget⟩ := keeps.forward _ _ here
    rw [isEmpty] at after
    cases after
    exact ⟨⟨keeps.inside _ (List.mem_of_getElem? here), [], atTarget, fits⟩, further⟩

/-- Wherever a run comes by, its stack has the shape that the address says. -/
theorem stands_of_reaches (keeps : KeepsStack kind code.toList)
    (admits : kind.Admits call.arguments) (reaches : Reaches t index call code ⟨0, [], h⟩ a) :
    Stands code a :=
  reaches.preserves (fun _ _ stands moves => (keeps.stands_of_moves admits stands moves).1)
    (keeps.stands_start h)

theorem address_lt (keeps : KeepsStack kind code.toList) (admits : kind.Admits call.arguments)
    (reaches : Reaches t index call code ⟨0, [], h⟩ a)
    (further : Relation.TransGen (Moves t index call code) a b) : a.address < b.address := by
  induction further with
  | single moves =>
    have stands := keeps.stands_of_reaches admits reaches
    exact (keeps.stands_of_moves admits stands moves).2
  | tail before moves ih =>
    have stands := keeps.stands_of_reaches admits (reaches.trans before.to_reflTransGen)
    exact Nat.lt_trans ih (keeps.stands_of_moves admits stands moves).2

/-- Where a run comes by, no fault is to be blamed on the code but one of the body that was called
there. -/
theorem step_blameless (keeps : KeepsStack kind code.toList)
    (admits : kind.Admits call.arguments) (reaches : Reaches t index call code ⟨0, [], h⟩ a)
    (here : code[a.address]? = some i) {fault : Fault} {after : Heap}
    (fails : step t index call a.stack i a.heap = (.error fault, after))
    (blames : fault.blamesCode = true) :
    kind ≠ .targetMethod ∧ CallFails t a.stack a.heap i fault after := by
  have stands := keeps.stands_of_reaches admits reaches
  obtain ⟨next, _, clean⟩ : ∃ next, _ ∧ (step t index call a.stack i).Clean _ _
      (NextFits kind i next) a.heap := keeps.step_stands admits stands here
  have failed := clean.2 fault after fails blames
  rw [← Array.getElem?_toList] at here
  exact ⟨failed.not_search (keeps.permitted i (List.mem_of_getElem? here)), failed⟩

theorem length_stack_of_ret (keeps : KeepsStack kind code.toList)
    (admits : kind.Admits call.arguments) (reaches : Reaches t index call code ⟨0, [], h⟩ a)
    (here : code[a.address]? = some .ret) : a.stack.length = 1 := by
  obtain ⟨found, isFound, fits⟩ := (keeps.stands_of_reaches admits reaches).fits
  rw [← Array.getElem?_toList] at here
  obtain ⟨shape, _, before, effect, _⟩ := keeps.shapeAt_of_getElem? here
  rw [before] at isFound
  cases isFound
  match found, effect with
  | [operand], _ => exact fits.length_eq.symm

theorem stack_eq_nil_of_target (keeps : KeepsStack kind code.toList)
    (admits : kind.Admits call.arguments) (reaches : Reaches t index call code ⟨0, [], h⟩ a)
    {address : Nat} {target : UInt16} (branches : code[address]? = some (.branchFalse target))
    (here : a.address = target.toNat) : a.stack = [] := by
  obtain ⟨shape, isShape, fits⟩ := (keeps.stands_of_reaches admits reaches).fits
  rw [← Array.getElem?_toList] at branches
  obtain ⟨_, _, atTarget⟩ := keeps.forward address target branches
  rw [here, atTarget] at isShape
  cases isShape
  exact List.forall₂_nil_left_iff.1 fits

/-- A run of the whole code ends as its kind of dispatch is to end, and no fault is to be blamed on
the code. -/
theorem runToEnd_clean (keeps : KeepsStack kind code.toList) (admits : kind.Admits call.arguments)
    (h : Heap) :
    (runToEnd t index call code).Clean Fault.blamesCode
      (fun fault after => kind ≠ .targetMethod ∧ CalleeFailed t index call code h fault after)
      kind.Answers h := by
  have forward : ∀ b c, Reaches t index call code ⟨0, [], h⟩ b → Moves t index call code b c →
      b.address < c.address :=
    fun b c reaches moves => keeps.address_lt admits reaches (.single moves)
  obtain ⟨c, reaches, ended⟩ := run_stops forward (allowance code)
  have stands := keeps.stands_of_reaches admits reaches
  have near : c.address < 0 + allowance code := by
    have inside := stands.inside
    unfold allowance
    omega
  rcases ended with stops | far
  · dsimp only at stops
    rw [runToEnd, Action.Clean]
    generalize ran : run t index call code (allowance code) 0 [] h = result at stops
    cases stops with
    | outside none =>
      rw [Array.getElem?_eq_none_iff] at none
      exact absurd stands.inside (Nat.not_lt.2 none)
    | fails here steps =>
      rw [Action.bind_apply_error _ ran]
      refine ⟨fun completion after ends => ?_, fun fault after fails blames => ?_⟩
      · cases ends
      · cases fails
        obtain ⟨calls, failed⟩ := keeps.step_blameless admits reaches here steps blames
        exact ⟨calls, c, _, reaches, here, failed⟩
    | done here steps =>
      obtain ⟨next, _, clean⟩ := keeps.step_stands admits stands here
      rw [Action.bind_apply_ok _ ran]
      refine ⟨fun completion after ends => ?_, fun fault after fails => ?_⟩
      · cases ends
        exact clean.1 _ _ steps
      · cases fails
  · exact absurd near (Nat.not_lt.2 far)

end KeepsStack

/-! ### Emitted code -/

/-- A dispatch came by a call whose body failed with the fault and left this heap. A search calls
nothing. -/
def RoutineSet.CalleeFailed (s : RoutineSet) (t : ClassTable) (kind : RoutineKind) (index : UInt32)
    (call : Call) (h : Heap) (fault : Fault) (after : Heap) : Prop :=
  kind ≠ .targetMethod ∧
    ∃ code, s.codeFor? kind index = some code ∧
      Machine.CalleeFailed t index call code h fault after

/-- A method without a problem for dispatch with one argument has at most one parameter. -/
theorem SingleAccess.arity_le {access : SingleAccess} {index : UInt32}
    (fine : access.problem? index = none) (m : MethodTarget) (isCall : access = .call m) :
    m.signature.arity ≤ 1 := by
  rw [isCall, problem?] at fine
  split at fine
  · cases fine
  · rename_i few
    exact Nat.le_of_not_lt few

namespace Emission

theorem shapeAfter_loadTargetAs (type : String) (shape : Shape) :
    shapeAfter (loadTargetAs type) shape = some (.content :: shape) := rfl

theorem shapeAfter_loadArguments (params : List TypeName) (start : Nat) (shape : Shape) :
    shapeAfter ((params.zipIdx start).flatMap fun entry =>
        [.loadPositional entry.2.toUInt16, .checkCast entry.1]) shape =
      some (List.replicate params.length .content ++ shape) := by
  induction params generalizing start shape with
  | nil => rfl
  | cons type params ih =>
    rw [List.zipIdx_cons, List.flatMap_cons, shapeAfter_append]
    show (some (Operand.content :: shape)).bind _ = _
    rw [Option.bind_some, ih, List.length_cons, List.replicate_succ', List.append_assoc]
    rfl

theorem effect?_call (m : MethodTarget) (shape : Shape) :
    (call m).effect? (List.replicate m.signature.params.length .content ++ .content :: shape) =
      some (resultShape m.signature.result ++ shape) := by
  rw [call, Instruction.effect?_invoke, Signature.arity, if_pos (by simp)]
  simp [List.drop_append]

theorem shapeAfter_normalize (type : TypeName) :
    shapeAfter (normalize type ++ [.ret]) (resultShape type) = some [] := by
  cases type <;> rfl

theorem shapeAfter_multiCall (m : MethodTarget) : shapeAfter (multiCall m) [] = some [] := by
  rw [multiCall, List.append_assoc, List.append_assoc, shapeAfter_append, shapeAfter_loadTargetAs,
    Option.bind_some, shapeAfter_append, loadArguments, shapeAfter_loadArguments, Option.bind_some,
    List.cons_append, shapeAfter_cons, effect?_call, Option.bind_some, List.append_nil]
  exact shapeAfter_normalize m.signature.result

theorem shapeAfter_singleCall {m : MethodTarget} (few : m.signature.arity ≤ 1) :
    shapeAfter (singleCall m) [] = some [] := by
  have effect := effect?_call m []
  have rest := shapeAfter_normalize m.signature.result
  rw [Signature.arity] at few
  rw [singleCall, List.append_assoc, List.append_assoc, shapeAfter_append, shapeAfter_loadTargetAs,
    Option.bind_some]
  rcases params : m.signature.params with _ | ⟨type, _ | ⟨second, more⟩⟩
  · simp only [params, List.length_nil, List.replicate_zero, List.nil_append,
      List.append_nil] at effect
    rw [List.nil_append, List.cons_append, shapeAfter_cons, effect]
    exact rest
  · simp only [params, List.length_singleton, List.replicate_one, List.singleton_append,
      List.append_nil] at effect
    have loads : shapeAfter [.loadArgument, .checkCast type] [.content] =
        some [.content, .content] := rfl
    rw [shapeAfter_append, loads, Option.bind_some, List.cons_append, shapeAfter_cons, effect]
    exact rest
  · rw [params, List.length_cons, List.length_cons] at few
    omega

theorem permits_normalize (type : TypeName) :
    ∀ i ∈ normalize type, RoutineKind.dispatch.permits i = true := by
  cases type <;> simp [normalize, RoutineKind.permits]

theorem permits_multiCall (m : MethodTarget) :
    ∀ i ∈ multiCall m, RoutineKind.dispatch.permits i = true := by
  have arguments : ∀ i ∈ loadArguments m.signature.params,
      RoutineKind.dispatch.permits i = true := by
    intro i member
    obtain ⟨entry, _, listed⟩ := List.mem_flatMap.1 member
    simp only [List.mem_cons, List.not_mem_nil, or_false] at listed
    rcases listed with rfl | rfl <;> rfl
  simp only [multiCall, List.forall_mem_append, List.forall_mem_cons]
  refine ⟨⟨⟨?_, arguments⟩, rfl, permits_normalize _⟩, rfl, ?_⟩
  · simp [loadTargetAs, RoutineKind.permits]
  · simp

/-- Code without branches only has to have the right shapes. -/
theorem keepsStack_of_straight {kind : RoutineKind} {code : List Instruction}
    (contained : SelfContained code) (straight : ∀ i ∈ code, i.asks = false)
    (permitted : ∀ i ∈ code, kind.permits i = true) (balanced : shapeAfter code [] = some []) :
    KeepsStack kind code := by
  refine ⟨contained, permitted, balanced, fun address target branches => ?_⟩
  cases straight _ (List.mem_of_getElem? branches)

/-- Both branches of an intercepted case lead forward to the direct call, and nothing is on the
stack there or behind the branch. -/
theorem keepsStack_intercepted {x : InterceptedTarget}
    (small : (MultiAccess.intercept x).codeLength ≤ Draft.maxAddress) :
    KeepsStack .dispatch (MultiAccess.intercept x).code := by
  have contained := selfContained_multi small
  rw [← MultiAccess.length_code] at small
  have exactly := interceptedCode_address small
  rw [MultiAccess.code] at contained small ⊢
  generalize isAddress : (5 + (multiCall x.bridgeMethod).length).toUInt16 = address at *
  have asksOnly : shapeAfter [.loadInterceptable, .branchFalse address, .loadTarget,
      .instanceOf (.named x.proxy), .branchFalse address] [] = some [] := rfl
  have beforeDirect : shapeAt (interceptedCode x address) address.toNat = some [] := by
    rw [shapeAt, exactly, interceptedCode, List.take_left' (by simp; omega), shapeAfter_append,
      asksOnly, Option.bind_some, shapeAfter_multiCall]
  refine ⟨contained, ?_, ?_, fun position target branches => ?_⟩
  · simp only [interceptedCode, List.forall_mem_append]
    refine ⟨⟨?_, permits_multiCall _⟩, permits_multiCall _⟩
    simp [RoutineKind.permits]
  · rw [interceptedCode, shapeAfter_append, shapeAfter_append, asksOnly, Option.bind_some,
      shapeAfter_multiCall, Option.bind_some, shapeAfter_multiCall]
  · obtain rfl := mem_interceptedCode (List.mem_of_getElem? branches)
    have early : position < 5 := by
      refine Nat.lt_of_not_le fun late => ?_
      rw [interceptedCode, List.append_assoc, List.getElem?_append_right late] at branches
      rcases List.mem_append.1 (List.mem_of_getElem? branches) with bridge | direct
      · exact Machine.branchFalse_notMem_multiCall _ _ bridge
      · exact Machine.branchFalse_notMem_multiCall _ _ direct
    refine ⟨by omega, ?_, beforeDirect⟩
    rw [interceptedCode, List.append_assoc, List.getElem?_append_left early] at branches
    rw [shapeAt, interceptedCode, List.append_assoc, List.take_append_of_le_length early]
    -- the branches stand behind the two questions
    obtain rfl | rfl | rfl | rfl | rfl :
        position = 0 ∨ position = 1 ∨ position = 2 ∨ position = 3 ∨ position = 4 := by omega
    · cases branches
    · rfl
    · cases branches
    · cases branches
    · rfl

theorem keepsStack_multi {access : MultiAccess} (small : access.codeLength ≤ Draft.maxAddress) :
    KeepsStack .dispatch access.code := by
  cases access with
  | call m =>
    exact keepsStack_of_straight (selfContained_multi small) (asks_multiCall m)
      (permits_multiCall m) (shapeAfter_multiCall m)
  | intercept x => exact keepsStack_intercepted small

theorem keepsStack_single {access : SingleAccess}
    (few : ∀ m, access = .call m → m.signature.arity ≤ 1) :
    KeepsStack .dispatchOne access.code := by
  refine keepsStack_of_straight (selfContained_single access) (asks_single access) ?_ ?_
  · cases access with
    | read f =>
      cases type : f.type <;>
        simp [SingleAccess.code, readField, loadTargetAs, type, RoutineKind.permits]
    | write f => simp [SingleAccess.code, writeField, loadTargetAs, RoutineKind.permits]
    | call m =>
      cases params : m.signature.params <;> cases result : m.signature.result <;>
        simp [SingleAccess.code, singleCall, loadTargetAs, call, normalize, params, result,
          RoutineKind.permits]
  · cases access with
    | read f =>
      rw [SingleAccess.code, readField]
      cases f.type <;> rfl
    | write f => rfl
    | call m =>
      exact shapeAfter_singleCall (few m rfl)

theorem keepsStack_search (m : MethodTarget) : KeepsStack .targetMethod m.searchCode := by
  refine ⟨selfContained_searchCode m, ?_, rfl, fun address target branches => ?_⟩
  · simp [MethodTarget.searchCode, RoutineKind.permits]
  · rcases List.mem_singleton.1 (List.mem_of_getElem? branches) with ⟨⟩

theorem keepsStack_default (kind : RoutineKind) : KeepsStack kind [.unknownIndex] := by
  refine ⟨selfContained_default, ?_, rfl, fun address target branches => ?_⟩
  · cases kind <;> simp [RoutineKind.permits]
  · rcases List.mem_singleton.1 (List.mem_of_getElem? branches) with ⟨⟩

theorem exists_offer_of_mem {α : Type} {kind : RoutineKind} {offers : List (UInt32 × α)}
    {draft : UInt32 → α → Except EmitError Draft} {r : Routine}
    (emitted : routineOf kind offers draft = .ok (some r)) {found : Case}
    (member : found ∈ r.cases.toList) :
    ∃ offer ∈ offers, (draft offer.1 offer.2 >>= assembleCase offer.1) = .ok found := by
  obtain ⟨cases, drafted, built⟩ := Checked.bind_eq_ok.1 emitted
  split at built
  · cases built
  · split at built
    · rename_i accepted
      cases built
      obtain ⟨_, rfl⟩ := Routine.assemble_eq_ok_iff.1 accepted
      exact Checked.exists_of_mem_mapM drafted member
    · cases built

end Emission

namespace Catalog

open Emission

variable {c : Catalog} {options : EmitOptions} {s : RoutineSet} {kind : RoutineKind}

/-- Every case that is emitted keeps its stack. -/
theorem keepsStack_of_mem (emitted : c.emit options = .ok s) {r : Routine}
    (present : s.routine? kind = some r) {found : Case} (member : found ∈ r.cases.toList) :
    KeepsStack kind found.code.toList := by
  obtain ⟨many, single, search⟩ := emit_routines emitted
  cases kind with
  | dispatch =>
    rw [show s.dispatch = some r from present] at many
    obtain ⟨⟨index, access⟩, _, cased⟩ := exists_offer_of_mem many member
    rw [multiCase_eq] at cased
    cases problem : access.problem? c.thisType index with
    | some error =>
      rw [problem] at cased
      cases cased
    | none =>
      rw [problem] at cased
      cases cased
      exact keepsStack_multi (MultiAccess.codeLength_le problem)
  | dispatchOne =>
    rw [show s.dispatchOne = some r from present] at single
    obtain ⟨⟨index, access⟩, _, cased⟩ := exists_offer_of_mem single member
    rw [singleCase_eq] at cased
    cases problem : access.problem? index with
    | some error =>
      rw [problem] at cased
      cases cased
    | none =>
      rw [problem] at cased
      cases cased
      exact keepsStack_single (SingleAccess.arity_le problem)
  | targetMethod =>
    cases locator : options.locator with
    | true =>
      have searched := search locator
      rw [show s.targetMethod = some r from present] at searched
      obtain ⟨⟨index, m⟩, _, cased⟩ := exists_offer_of_mem searched member
      rw [searchCase_eq] at cased
      cases cased
      exact keepsStack_search m
    | false =>
      have absent := (emit_options emitted).2 locator
      rw [show s.targetMethod = some r from present] at absent
      cases absent

/-- The code behind an index keeps its stack, be it a case or the code for unknown indices. -/
theorem keepsStack_of_emit (emitted : c.emit options = .ok s) {index : UInt32}
    {code : Array Instruction} (runs : s.codeFor? kind index = some code) :
    KeepsStack kind code.toList := by
  obtain ⟨r, present, rfl⟩ := Option.map_eq_some_iff.1 runs
  rw [Routine.codeFor]
  cases found : r.case? index with
  | some here => exact keepsStack_of_mem emitted present (Routine.mem_of_bisect found).1
  | none => exact keepsStack_default kind

theorem execute_clean (emitted : c.emit options = .ok s) (t : ClassTable) (kind : RoutineKind)
    (index : UInt32) (call : Call) (h : Heap) (admits : kind.Admits call.arguments) :
    (s.execute t kind index call).Clean Fault.blamesCode (s.CalleeFailed t kind index call h)
      kind.Answers h := by
  cases present : s.routine? kind with
  | none =>
    rw [RoutineSet.execute, present]
    exact .throw rfl
  | some r =>
    have runs : s.codeFor? kind index = some (r.codeFor index) := by
      rw [RoutineSet.codeFor?, present, Option.map_some]
    rw [RoutineSet.execute_eq runs]
    refine ((keepsStack_of_emit emitted runs).runToEnd_clean admits h).mono (fun _ => id) ?_
    rintro fault after ⟨calls, failed⟩
    exact ⟨calls, r.codeFor index, runs, failed⟩

/-- In code that is emitted, every branch leads forward. Wherever a dispatch with arguments of its
kind comes by, it only goes on to later addresses, so no instruction runs twice; no fault there is
to be blamed on the code, whatever the native bodies do, unless the instruction is a call and the
body that it called failed with it; on a return there is exactly one slot on the stack, and where a
branch leads there is none. A dispatch ends with a value and a search with a method, and a search
has no such fault at all. -/
theorem emit_keepsStack (emitted : c.emit options = .ok s) :
    (∀ kind index code, s.codeFor? kind index = some code →
      (∀ (address : Nat) target, code[address]? = some (.branchFalse target) →
        address < target.toNat ∧ target.toNat < code.size) ∧
      ∀ t call h a, kind.Admits call.arguments → Machine.Reaches t index call code ⟨0, [], h⟩ a →
        (∀ b, Relation.TransGen (Machine.Moves t index call code) a b → a.address < b.address) ∧
        (∀ i fault after, code[a.address]? = some i →
          Machine.step t index call a.stack i a.heap = (.error fault, after) →
          fault.blamesCode = true →
          kind ≠ .targetMethod ∧ Machine.CallFails t a.stack a.heap i fault after) ∧
        (code[a.address]? = some .ret → a.stack.length = 1) ∧
        ∀ (address : Nat) target, code[address]? = some (.branchFalse target) →
          a.address = target.toNat → a.stack = []) ∧
    (∀ t kind index call h, kind.Admits call.arguments →
      (s.execute t kind index call).Clean Fault.blamesCode (s.CalleeFailed t kind index call h)
        kind.Answers h) ∧
    (∀ t index target args interceptable h,
      (s.dispatchMany t index target args interceptable).Clean Fault.blamesCode
        (s.CalleeFailed t .dispatch index ⟨target, .multi args, interceptable⟩ h)
        (fun _ => True) h) ∧
    (∀ t index target arg h,
      (s.dispatchSingle t index target arg).Clean Fault.blamesCode
        (s.CalleeFailed t .dispatchOne index ⟨target, .single arg, false⟩ h) (fun _ => True) h) ∧
    ∀ t index h, (s.locate t index).Clean Fault.blamesCode (fun _ _ => False) (fun _ => True) h := by
  refine ⟨fun kind index code runs => ?_, execute_clean emitted,
    fun t index target args interceptable h => ?_, fun t index target arg h => ?_,
    fun t index h => ?_⟩
  · have keeps := keepsStack_of_emit emitted runs
    refine ⟨fun address target branches => ?_, fun t call h a admits reaches => ?_⟩
    · rw [← Array.getElem?_toList] at branches
      exact ⟨(keeps.forward address target branches).1,
        keeps.inside target (List.mem_of_getElem? branches)⟩
    · exact ⟨fun b => keeps.address_lt admits reaches,
        fun i fault after here => keeps.step_blameless admits reaches here,
        keeps.length_stack_of_ret admits reaches,
        fun address target => keeps.stack_eq_nil_of_target admits reaches⟩
  · apply (execute_clean emitted t .dispatch index ⟨target, .multi args, interceptable⟩ h
      ⟨args, rfl⟩).bind
    rintro completion _ _ ⟨value, rfl⟩
    exact .pure trivial
  · apply (execute_clean emitted t .dispatchOne index ⟨target, .single arg, false⟩ h
      ⟨arg, rfl⟩).bind
    rintro completion _ _ ⟨value, rfl⟩
    exact .pure trivial
  · have clean := execute_clean emitted t .targetMethod index ⟨.null, .multi [], false⟩ h trivial
    refine (clean.mono (fun _ => id) fun _ _ failed => failed.1 rfl).bind ?_
    rintro completion _ _ ⟨method, rfl⟩
    exact .pure trivial

/-- The case of an intercepted method, run with interception off: a branch leads forward to the
direct call, the run comes there, and finds nothing on the stack. -/
theorem emit_keepsStack_audited :
    ∃ s, Counter.catalog.emit {} = .ok s ∧ ∃ code, s.codeFor? .dispatch 3 = some code ∧
      (∃ target : UInt16, code[1]? = some (.branchFalse target) ∧ 1 < target.toNat ∧
        ∃ c, Machine.Reaches Counter.classes 3 ⟨Counter.auditedCounter, .multi [.int 7], false⟩ code
          ⟨0, [], Counter.heap⟩ c ∧ c.address = target.toNat ∧ c.stack = []) ∧
      (s.dispatchMany Counter.classes 3 Counter.auditedCounter [.int 7] false).Clean
        Fault.blamesCode (s.CalleeFailed Counter.classes .dispatch 3
          ⟨Counter.auditedCounter, .multi [.int 7], false⟩ Counter.heap)
        (fun _ => True) Counter.heap := by
  obtain ⟨s, emitted⟩ : ∃ s, Counter.catalog.emit {} = .ok s := ⟨_, rfl⟩
  have present : Counter.catalog.get? 3 = some (.intercepted Counter.audited) := rfl
  obtain ⟨_, code, target, runs, intercepts⟩ := intercepts_of_emit emitted present
  have reaches : Machine.Reaches Counter.classes 3 ⟨Counter.auditedCounter, .multi [.int 7], false⟩
      code ⟨0, [], Counter.heap⟩ ⟨target.toNat, [], Counter.heap⟩ :=
    Machine.reaches_direct intercepts Counter.heap rfl
  obtain ⟨codes, _, many, _, _⟩ := emit_keepsStack emitted
  obtain ⟨forward, comesBy⟩ := codes .dispatch 3 code runs
  obtain ⟨_, _, _, isEmpty⟩ := comesBy _ _ _ _ ⟨_, rfl⟩ reaches
  have branches := intercepts.leavesWhenOff
  have later := (forward 1 target branches).1
  exact ⟨s, emitted, code, runs,
    ⟨target, branches, later, _, reaches, rfl, isEmpty 1 target branches rfl⟩, many _ _ _ _ _ _⟩

end Catalog

end BeanDispatch
