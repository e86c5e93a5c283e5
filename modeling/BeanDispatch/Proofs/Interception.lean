import BeanDispatch.Introspection.Compiled
import BeanDispatch.Proofs.MultiDispatch

/-! Interception. The case of an intercepted method asks whether interception is on and whether the
target is an instance of the proxy class. A no to either jumps to the direct call; two times yes go
on to the bridge call, which ends with a return of its own. `OnRoute` lists where a run can be, and
shows that the direct call starts with an empty stack and that no run enters both calls. Over a run
of a generated type the flag is the one switched last; nothing else changes the routines or the
classes. -/

namespace BeanDispatch

open Emission

namespace InterceptedTarget

/-- Whether a call goes to the bridge. Null is an instance of nothing. -/
def routes (x : InterceptedTarget) (t : ClassTable) (interceptable : Bool) (target : Value) :
    Bool :=
  interceptable && t.isInstance target (.named x.proxy)

def routed (x : InterceptedTarget) (t : ClassTable) (interceptable : Bool) (target : Value) :
    MethodTarget :=
  if x.routes t interceptable target then x.bridgeMethod else x.method

/-- A bridge has the parameters and the result of the method that it stands in for. -/
theorem routed_signature (x : InterceptedTarget) (t : ClassTable) (interceptable : Bool)
    (target : Value) :
    (x.routed t interceptable target).signature.params = x.method.signature.params ∧
      (x.routed t interceptable target).signature.result = x.method.signature.result := by
  rw [routed]
  split <;> exact ⟨rfl, rfl⟩

end InterceptedTarget

/-! ### The code -/

theorem arity_le_of_multiDraft_intercept {thisType : String} {index : UInt32}
    {x : InterceptedTarget} {d : Draft} (drawn : multiDraft thisType index (.intercept x) = .ok d) :
    x.method.signature.arity ≤ maxParameters ∧ d = interceptedCall x := by
  rw [multiDraft] at drawn
  by_cases foreign : x.thisType ≠ thisType
  · rw [if_pos foreign] at drawn
    cases drawn
  · rw [if_neg foreign] at drawn
    obtain ⟨_, checked, done⟩ := Checked.bind_eq_ok.1 drawn
    cases done
    exact ⟨arity_le_of_checkParameters checked, rfl⟩

/-- The code of an intercepted method whose direct call stands at an address. -/
def interceptedCode (x : InterceptedTarget) (address : UInt16) : List Instruction :=
  [.loadInterceptable, .branchFalse address, .loadTarget, .instanceOf (.named x.proxy),
    .branchFalse address] ++ multiCall x.bridgeMethod ++ multiCall x.method

theorem interceptedCall_steps (x : InterceptedTarget) :
    Draft.steps (interceptedCall x) =
      [.inl .loadInterceptable, .inr direct, .inl .loadTarget,
        .inl (.instanceOf (.named x.proxy)), .inr direct] ++
        (multiCall x.bridgeMethod).map Sum.inl ++ (multiCall x.method).map Sum.inl := by
  rw [interceptedCall, Draft.steps_append, Draft.steps_append, steps_instructions]
  exact congrArg (_ ++ ·) (steps_instructions _)

theorem interceptedCall_address (x : InterceptedTarget) :
    Draft.address? (interceptedCall x) direct = some (5 + (multiCall x.bridgeMethod).length) := by
  have places : Draft.placesFrom 0 [] (interceptedCall x) =
      [(direct, 5 + (multiCall x.bridgeMethod).length)] := by
    rw [interceptedCall, List.append_assoc]
    refine (placesFrom_instructions _ _ 5 []).trans ?_
    rw [Draft.placesFrom, ← List.append_nil (instructions (multiCall x.method)),
      placesFrom_instructions, Draft.placesFrom]
  rw [Draft.address?, places]
  rfl

/-- Both branches are resolved to the address where the direct call begins. -/
theorem assemble_interceptedCall_eq (x : InterceptedTarget) :
    let code := interceptedCode x (5 + (multiCall x.bridgeMethod).length).toUInt16
    (interceptedCall x).assemble =
      if Draft.maxAddress < code.length then .error (.tooLong code.length) else .ok code := by
  intro code
  have each : ∀ line ∈ Draft.steps (interceptedCall x),
      Draft.resolve (interceptedCall x) line = .ok (line.elim id fun _ =>
        .branchFalse (5 + (multiCall x.bridgeMethod).length).toUInt16) := by
    intro line member
    cases line with
    | inl i => rfl
    | inr label =>
      have same : label = direct := by
        rw [interceptedCall_steps] at member
        simpa using member
      rw [Draft.resolve, same, interceptedCall_address]
      rfl
  have mapped : (Draft.steps (interceptedCall x)).map (Sum.elim id fun _ =>
      .branchFalse (5 + (multiCall x.bridgeMethod).length).toUInt16) = code := by
    rw [interceptedCall_steps]
    simp [code, interceptedCode, Function.comp_def]
  have length : Draft.length (interceptedCall x) = code.length := by
    rw [← mapped, List.length_map, Draft.length]
  rw [Draft.assemble_of_placed each, length, mapped]

theorem interceptedCode_address {x : InterceptedTarget} {address : UInt16}
    (small : (interceptedCode x address).length ≤ Draft.maxAddress) :
    (5 + (multiCall x.bridgeMethod).length).toUInt16.toNat =
      5 + (multiCall x.bridgeMethod).length := by
  simp only [interceptedCode, List.length_append, List.length_cons, List.length_nil,
    Draft.maxAddress] at small
  exact UInt16.toNat_ofNat_of_lt (show _ < 65536 by omega)

theorem assemble_interceptedCall {x : InterceptedTarget} {code : List Instruction}
    (assembled : (interceptedCall x).assemble = .ok code) :
    ∃ address : UInt16, address.toNat = 5 + (multiCall x.bridgeMethod).length ∧
      code = interceptedCode x address := by
  rw [assemble_interceptedCall_eq] at assembled
  split at assembled
  · cases assembled
  · rename_i small
    cases assembled
    exact ⟨_, interceptedCode_address (Nat.le_of_not_lt small), rfl⟩

/-- Code that asks both questions and holds both calls, the direct one at an address. -/
structure Intercepts (code : Array Instruction) (x : InterceptedTarget) (address : UInt16) :
    Prop where
  asksFlag : code[0]? = some .loadInterceptable
  leavesWhenOff : code[1]? = some (.branchFalse address)
  loadsTarget : code[2]? = some .loadTarget
  asksInstance : code[3]? = some (.instanceOf (.named x.proxy))
  leavesOthers : code[4]? = some (.branchFalse address)
  bridge : Machine.Holds code 5 (multiCall x.bridgeMethod)
  direct : Machine.Holds code address.toNat (multiCall x.method)
  follows : address.toNat = 5 + (multiCall x.bridgeMethod).length

theorem intercepts_of_holds {code : Array Instruction} {x : InterceptedTarget} {address : UInt16}
    (follows : address.toNat = 5 + (multiCall x.bridgeMethod).length)
    (holds : Machine.Holds code 0 (interceptedCode x address)) : Intercepts code x address := by
  rw [interceptedCode, List.append_assoc, Machine.holds_append, Machine.holds_append] at holds
  obtain ⟨asks, bridge, direct⟩ := holds
  obtain ⟨asksFlag, asks⟩ := Machine.holds_cons.1 asks
  obtain ⟨leavesWhenOff, asks⟩ := Machine.holds_cons.1 asks
  obtain ⟨loadsTarget, asks⟩ := Machine.holds_cons.1 asks
  obtain ⟨asksInstance, asks⟩ := Machine.holds_cons.1 asks
  obtain ⟨leavesOthers, _⟩ := Machine.holds_cons.1 asks
  exact ⟨asksFlag, leavesWhenOff, loadsTarget, asksInstance, leavesOthers, bridge,
    follows ▸ direct, follows⟩

theorem intercepts_of_offered {c : Catalog} {options : EmitOptions} {s : RoutineSet}
    {index : UInt32} {x : InterceptedTarget} (emitted : c.emit options = .ok s)
    (offered : (index, .intercept x) ∈ c.select Target.multi?) :
    x.method.signature.arity ≤ maxParameters ∧
      ∃ code address, s.codeFor? .dispatch index = some code ∧ Intercepts code x address := by
  obtain ⟨d, code, drawn, assembled, runs⟩ :=
    routineOf_code (Catalog.emit_routines emitted).1 offered
  obtain ⟨few, rfl⟩ := arity_le_of_multiDraft_intercept drawn
  obtain ⟨address, follows, rfl⟩ := assemble_interceptedCall assembled
  exact ⟨few, _, address, runs, intercepts_of_holds follows (Machine.holds_toArray _)⟩

theorem intercepts_of_emit {c : Catalog} {options : EmitOptions} {s : RoutineSet} {index : UInt32}
    {x : InterceptedTarget} (emitted : c.emit options = .ok s)
    (present : c.get? index = some (.intercepted x)) :
    x.method.signature.arity ≤ maxParameters ∧
      ∃ code address, s.codeFor? .dispatch index = some code ∧ Intercepts code x address :=
  intercepts_of_offered emitted (Catalog.mem_select present rfl)

/-! ### The run -/

namespace Machine

variable {t : ClassTable} {index : UInt32} {call : Call} {code : Array Instruction}
  {x : InterceptedTarget} {address : UInt16}

section Questions

variable (intercepts : Intercepts code x address) (h : Heap)
include intercepts

theorem moves_asksFlag :
    Moves t index call code ⟨0, [], h⟩ ⟨1, [.bool call.interceptable], h⟩ :=
  .goOn intercepts.asksFlag rfl

theorem moves_whenOff (off : call.interceptable = false) :
    Moves t index call code ⟨1, [.bool call.interceptable], h⟩ ⟨address.toNat, [], h⟩ := by
  rw [off]
  exact .jump intercepts.leavesWhenOff rfl

theorem moves_whenOn (on : call.interceptable = true) :
    Moves t index call code ⟨1, [.bool call.interceptable], h⟩ ⟨2, [], h⟩ := by
  rw [on]
  exact .goOn intercepts.leavesWhenOff rfl

theorem moves_loadsTarget :
    Moves t index call code ⟨2, [], h⟩ ⟨3, [.ref call.target], h⟩ :=
  .goOn intercepts.loadsTarget rfl

theorem moves_asksInstance :
    Moves t index call code ⟨3, [.ref call.target], h⟩
      ⟨4, [.bool (t.isInstance call.target (.named x.proxy))], h⟩ :=
  .goOn intercepts.asksInstance rfl

theorem moves_whenOther (other : t.isInstance call.target (.named x.proxy) = false) :
    Moves t index call code ⟨4, [.bool (t.isInstance call.target (.named x.proxy))], h⟩
      ⟨address.toNat, [], h⟩ := by
  rw [other]
  exact .jump intercepts.leavesOthers rfl

theorem moves_whenInstance (isOne : t.isInstance call.target (.named x.proxy) = true) :
    Moves t index call code ⟨4, [.bool (t.isInstance call.target (.named x.proxy))], h⟩
      ⟨5, [], h⟩ := by
  rw [isOne]
  exact .goOn intercepts.leavesOthers rfl

end Questions

/-- What follows the questions decides the whole case, with the heap as it was. -/
theorem RunsTo.intercepted {outcome : Action Fault Completion}
    (intercepts : Intercepts code x address)
    (bridge : x.routes t call.interceptable call.target = true →
      RunsTo t index call code 5 [] outcome)
    (direct : x.routes t call.interceptable call.target = false →
      RunsTo t index call code address.toNat [] outcome) :
    RunsTo t index call code 0 [] outcome := by
  have far : 5 ≤ address.toNat := by
    rw [intercepts.follows]
    omega
  refine .of_moves (moves_asksFlag intercepts) (by omega) ?_
  cases on : call.interceptable with
  | false =>
    rw [InterceptedTarget.routes, on] at direct
    rw [← on]
    exact .of_moves (moves_whenOff intercepts · on) (by omega) (direct rfl)
  | true =>
    rw [InterceptedTarget.routes, on, Bool.true_and] at bridge direct
    rw [← on]
    refine .of_moves (moves_whenOn intercepts · on) (by omega) ?_
    refine .of_moves (moves_loadsTarget intercepts) (by omega) ?_
    refine .of_moves (moves_asksInstance intercepts) (by omega) ?_
    cases isOne : t.isInstance call.target (.named x.proxy) with
    | false =>
      rw [← isOne]
      exact .of_moves (moves_whenOther intercepts · isOne) (by omega) (direct isOne)
    | true =>
      rw [← isOne]
      exact .of_moves (moves_whenInstance intercepts · isOne) (by omega) (bridge isOne)

/-- Where the run of an intercepted case can be, having started on the heap `h`. -/
inductive OnRoute (t : ClassTable) (call : Call) (x : InterceptedTarget) (address : UInt16)
    (h : Heap) : Configuration → Prop
  | start : OnRoute t call x address h ⟨0, [], h⟩
  | flag : OnRoute t call x address h ⟨1, [.bool call.interceptable], h⟩
  | on (on : call.interceptable = true) : OnRoute t call x address h ⟨2, [], h⟩
  | target (on : call.interceptable = true) : OnRoute t call x address h ⟨3, [.ref call.target], h⟩
  | answer (on : call.interceptable = true) :
    OnRoute t call x address h ⟨4, [.bool (t.isInstance call.target (.named x.proxy))], h⟩
  | bridge {c : Configuration} (routes : x.routes t call.interceptable call.target = true)
    (inside : Within 5 (multiCall x.bridgeMethod) c) : OnRoute t call x address h c
  | direct (stays : x.routes t call.interceptable call.target = false) :
    OnRoute t call x address h ⟨address.toNat, [], h⟩
  | beyond {c : Configuration} (stays : x.routes t call.interceptable call.target = false)
    (after : address.toNat < c.address) (inside : Within address.toNat (multiCall x.method) c) :
    OnRoute t call x address h c

theorem Moves.onRoute {a b : Configuration} {h : Heap} (moves : Moves t index call code a b)
    (intercepts : Intercepts code x address) (onRoute : OnRoute t call x address h a) :
    OnRoute t call x address h b := by
  cases onRoute with
  | start =>
    cases moves.unique (moves_asksFlag intercepts h)
    exact .flag
  | flag =>
    cases on : call.interceptable with
    | false =>
      cases moves.unique (moves_whenOff intercepts h on)
      exact .direct (by rw [InterceptedTarget.routes, on, Bool.false_and])
    | true =>
      cases moves.unique (moves_whenOn intercepts h on)
      exact .on on
  | on on =>
    cases moves.unique (moves_loadsTarget intercepts h)
    exact .target on
  | target on =>
    cases moves.unique (moves_asksInstance intercepts h)
    exact .answer on
  | answer on =>
    cases isOne : t.isInstance call.target (.named x.proxy) with
    | false =>
      cases moves.unique (moves_whenOther intercepts h isOne)
      exact .direct (by rw [InterceptedTarget.routes, isOne, Bool.and_false])
    | true =>
      cases moves.unique (moves_whenInstance intercepts h isOne)
      exact .bridge (by rw [InterceptedTarget.routes, on, isOne, Bool.and_true]) within_start
  | bridge routes inside => exact .bridge routes (moves.within intercepts.bridge inside).2
  | direct stays =>
    obtain ⟨next, inside⟩ := moves.within intercepts.direct within_start
    exact .beyond stays (by rw [next]; exact Nat.lt_succ_self _) inside
  | beyond stays after inside =>
    obtain ⟨next, inside⟩ := moves.within intercepts.direct inside
    exact .beyond stays (by omega) inside

theorem onRoute_of_reaches {c : Configuration} {h : Heap} (intercepts : Intercepts code x address)
    (reaches : Reaches t index call code ⟨0, [], h⟩ c) : OnRoute t call x address h c :=
  Reaches.preserves (fun _ _ onRoute moves => moves.onRoute intercepts onRoute) .start reaches

theorem OnRoute.at_direct {c : Configuration} {h : Heap} (onRoute : OnRoute t call x address h c)
    (intercepts : Intercepts code x address) (entered : c.address = address.toNat) :
    c = ⟨address.toNat, [], h⟩ := by
  have follows := intercepts.follows
  cases onRoute with
  | direct _ => rfl
  | bridge _ inside => exact absurd inside.2 (by omega)
  | beyond _ after _ => omega
  | _ => exact absurd entered (by dsimp only; omega)

/-- The two answers decide which of the two calls a run is in. -/
theorem OnRoute.routes_iff {c : Configuration} {h : Heap} (onRoute : OnRoute t call x address h c)
    (intercepts : Intercepts code x address) (calls : 5 ≤ c.address) :
    c.address < address.toNat ↔ x.routes t call.interceptable call.target = true := by
  have follows := intercepts.follows
  cases onRoute with
  | bridge routes inside => exact iff_of_true (follows ▸ inside.2) routes
  | direct stays => exact iff_of_false (Nat.lt_irrefl _) (by rw [stays]; decide)
  | beyond stays after _ => exact iff_of_false (Nat.lt_asymm after) (by rw [stays]; decide)
  | _ => exact absurd calls (by dsimp only; omega)

/-- A call that stays with the method comes to the direct call, whichever question was answered
no. -/
theorem reaches_direct (intercepts : Intercepts code x address) (h : Heap)
    (stays : x.routes t call.interceptable call.target = false) :
    Reaches t index call code ⟨0, [], h⟩ ⟨address.toNat, [], h⟩ := by
  refine .head (moves_asksFlag intercepts h) ?_
  cases on : call.interceptable with
  | false =>
    rw [← on]
    exact .single (moves_whenOff intercepts h on)
  | true =>
    rw [InterceptedTarget.routes, on, Bool.true_and] at stays
    rw [← on]
    exact .head (moves_whenOn intercepts h on) (.head (moves_loadsTarget intercepts h)
      (.head (moves_asksInstance intercepts h) (.single (moves_whenOther intercepts h stays))))

/-- How a run of an intercepted case goes that starts on the heap `h`. -/
structure EntersOneCall (t : ClassTable) (index : UInt32) (call : Call) (code : Array Instruction)
    (x : InterceptedTarget) (address : UInt16) (h : Heap) : Prop where
  /-- With a no to either question, the run comes to the direct call. -/
  arrives : x.routes t call.interceptable call.target = false →
    Reaches t index call code ⟨0, [], h⟩ ⟨address.toNat, [], h⟩
  /-- Whenever it comes there, nothing is left of the questions. -/
  clean : ∀ c, Reaches t index call code ⟨0, [], h⟩ c → c.address = address.toNat →
    c = ⟨address.toNat, [], h⟩
  /-- Which of the two calls it is in follows from the answers. -/
  decided : ∀ c, Reaches t index call code ⟨0, [], h⟩ c → 5 ≤ c.address →
    (c.address < address.toNat ↔ x.routes t call.interceptable call.target = true)

theorem entersOneCall (intercepts : Intercepts code x address) (h : Heap) :
    EntersOneCall t index call code x address h where
  arrives := reaches_direct intercepts h
  clean _ reaches := ((onRoute_of_reaches intercepts reaches).at_direct intercepts ·)
  decided _ reaches := (onRoute_of_reaches intercepts reaches).routes_iff intercepts

end Machine

namespace RoutineSet

variable {c : Catalog} {options : EmitOptions} {s : RoutineSet} {index : UInt32}
  {x : InterceptedTarget}

theorem execute_intercept (emitted : c.emit options = .ok s)
    (offered : (index, .intercept x) ∈ c.select Target.multi?) (t : ClassTable) (call : Call) :
    let m := x.routed t call.interceptable call.target
    m.signature.arity ≤ maxParameters ∧ s.execute t .dispatch index call =
      Completion.value <$> m.perform t call.target (call.slots t .dispatch m.signature.params) := by
  obtain ⟨few, code, address, runs, intercepts⟩ := intercepts_of_offered emitted offered
  refine ⟨?_, execute_eq_of_runsTo runs (.intercepted intercepts (fun routes => ?_) fun stays => ?_)⟩
  · rwa [Signature.arity, (x.routed_signature t call.interceptable call.target).1]
  · have bridge : x.routed t call.interceptable call.target = x.bridgeMethod := if_pos routes
    rw [bridge]
    exact .multiCall intercepts.bridge
  · have direct : x.routed t call.interceptable call.target = x.method := by
      rw [InterceptedTarget.routed, stays]
      rfl
    rw [direct]
    exact .multiCall intercepts.direct

theorem dispatchMany_intercepted (emitted : c.emit options = .ok s)
    (present : c.get? index = some (.intercepted x)) (t : ClassTable) (target : Value)
    (args : List Value) (interceptable : Bool) :
    s.dispatchMany t index target args interceptable =
      (x.routed t interceptable target).evaluate t target args := by
  obtain ⟨few, performs⟩ := execute_intercept emitted (Catalog.mem_select present rfl) t
    ⟨target, .multi args, interceptable⟩
  exact dispatchMany_of_execute few performs

end RoutineSet

/-! ### Runs of a generated type -/

/-- What is done with a generated type: interception is switched, or a target is dispatched. -/
inductive Use
  | switch (on : Bool)
  | dispatch (index : UInt32) (target : Value) (args : List Value)
  | dispatchOne (index : UInt32) (target arg : Value)

namespace Use

def switch? : Use → Option Bool
  | switch on => some on
  | _ => none

/-- The flag after some uses: the one switched last, if any was. -/
def flagAfter (initially : Bool) (uses : List Use) : Bool :=
  (uses.filterMap switch?).getLast?.getD initially

theorem flagAfter_cons (initially : Bool) (use : Use) (uses : List Use) :
    flagAfter initially (use :: uses) = flagAfter (use.switch?.getD initially) uses := by
  rw [flagAfter, flagAfter, List.filterMap_cons]
  cases use.switch? with
  | none => rfl
  | some on =>
    rw [List.getLast?_cons]
    rfl

end Use

namespace CompiledType

/-- The generated type and the heap after a use. -/
def use (g : CompiledType) (h : Heap) : Use → CompiledType × Heap
  | .switch on => (g.setInterceptable on, h)
  | .dispatch index target args => (g, (GeneratedType.dispatch g index target args h).2)
  | .dispatchOne index target arg => (g, (GeneratedType.dispatchOne g index target arg h).2)

/-- The generated type and the heap after some uses, one after the other. -/
def useAll (g : CompiledType) (h : Heap) : List Use → CompiledType × Heap
  | [] => (g, h)
  | use :: uses => useAll (g.use h use).1 (g.use h use).2 uses

theorem use_type (g : CompiledType) (h : Heap) (use : Use) :
    (g.use h use).1 = g.setInterceptable (use.switch?.getD g.interceptable) := by
  cases use <;> rfl

/-- Uses change nothing of a generated type but its flag. -/
theorem useAll_type (g : CompiledType) (h : Heap) (uses : List Use) :
    (g.useAll h uses).1 = g.setInterceptable (Use.flagAfter g.interceptable uses) := by
  induction uses generalizing g h with
  | nil => rfl
  | cons use uses ih =>
    rw [useAll, ih, use_type, Use.flagAfter_cons]
    rfl

/-- Whatever was done before, dispatching an intercepted method is calling the bridge, if the flag
switched last is on and the target is an instance of the proxy class, and the method itself
otherwise. It is what any emitted plain target of that method does. On the way the code comes to the
direct call with nothing left over, and it never enters both calls. -/
theorem dispatch_intercepted {c : Catalog} {options : EmitOptions} {g : CompiledType}
    {index : UInt32} {x : InterceptedTarget} (emitted : c.emit options = .ok g.routines)
    (present : c.get? index = some (.intercepted x)) (initially : g.interceptable = false)
    (before : Heap) (uses : List Use) (target : Value) (args : List Value) :
    let on := Use.flagAfter false uses
    let m := x.routed g.classes on target
    let dispatched := GeneratedType.dispatch (g.useAll before uses).1 index target args
    dispatched = m.evaluate g.classes target args ∧
      (∀ {c' : Catalog} {options' s' index' style}, c'.emit options' = .ok s' →
        c'.get? index' = some (.method m style) → style.multiple = true → ∀ flag,
          dispatched = s'.dispatchMany g.classes index' target args flag) ∧
      (∀ h, m.RunsAtMostOnce g.classes target args h (dispatched h).2) ∧
      ∃ code address, g.routines.codeFor? .dispatch index = some code ∧
        Intercepts code x address ∧
        ∀ h, Machine.EntersOneCall g.classes index ⟨target, .multi args, on⟩ code x address h := by
  intro on m dispatched
  have evaluates : dispatched = m.evaluate g.classes target args := by
    show GeneratedType.dispatch (g.useAll before uses).1 index target args = _
    rw [useAll_type, initially]
    exact RoutineSet.dispatchMany_intercepted emitted present g.classes target args on
  refine ⟨evaluates, fun plain listed multi flag => ?_, fun h => ?_, ?_⟩
  · rw [evaluates, (RoutineSet.dispatchMany_method plain listed multi).2]
  · rw [evaluates]
    exact MethodTarget.evaluate_heap target args h
  · obtain ⟨_, code, address, runs, intercepts⟩ := intercepts_of_emit emitted present
    exact ⟨code, address, runs, intercepts, fun h => Machine.entersOneCall intercepts h⟩

/-- A counter calls the method, and an audited counter the bridge until interception is off
again. -/
theorem dispatch_intercepted_audited : ∃ g : CompiledType,
    Counter.catalog.emit {} = .ok g.routines ∧
    (GeneratedType.dispatch (g.useAll Counter.heap [.switch true]).1 3 Counter.counter
      [.int 3] Counter.heap).1 = .ok (.int 3) ∧
    (GeneratedType.dispatch (g.useAll Counter.heap [.switch true]).1 3 Counter.auditedCounter
      [.int 3] Counter.heap).1 = .ok (.int 0) ∧
    (GeneratedType.dispatch (g.useAll Counter.heap [.switch true, .switch false]).1 3
      Counter.auditedCounter [.int 3] Counter.heap).1 = .ok (.int 3) := by
  obtain ⟨s, emitted⟩ : ∃ s, Counter.catalog.emit {} = .ok s := ⟨_, rfl⟩
  have present : Counter.catalog.get? 3 = some (.intercepted Counter.audited) := rfl
  let g : CompiledType := ⟨s, Counter.classes, false, OrderedMap.empty, none, none⟩
  have routed := dispatch_intercepted (g := g) emitted present rfl Counter.heap
  refine ⟨g, emitted, ?_, ?_, ?_⟩
  · rw [(routed [.switch true] Counter.counter [.int 3]).1]
    rfl
  · rw [(routed [.switch true] Counter.auditedCounter [.int 3]).1]
    rfl
  · rw [(routed [.switch true, .switch false] Counter.auditedCounter [.int 3]).1]
    rfl

end CompiledType

end BeanDispatch
