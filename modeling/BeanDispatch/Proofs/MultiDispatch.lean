import BeanDispatch.Proofs.CallCode
import BeanDispatch.Proofs.EmittedCode

/-! Dispatch with an argument list. The emitted case of a method does exactly what a direct call
does: it casts the target, takes the arguments one after the other, calls once, and makes the result
a value. The statement is about every catalog that is emitted, every class table, whatever its
native bodies do, and every list of arguments; how many there are only matters if one is missing. -/

namespace BeanDispatch

open Emission

variable {c : Catalog} {options : EmitOptions} {s : RoutineSet} {index : UInt32}

theorem Emission.arity_le_of_checkParameters {m : MethodTarget} {u : Unit}
    (checked : checkParameters index m = .ok u) : m.signature.arity ≤ maxParameters := by
  rw [checkParameters] at checked
  split at checked
  · cases checked
  · rename_i few
    exact Nat.le_of_not_lt few

/-- A call that is short enough to be emitted has no more parameters than positions. -/
theorem Emission.arity_le_of_multiDraft {thisType : String} {m : MethodTarget} {d : Draft}
    (drawn : multiDraft thisType index (.call m) = .ok d) :
    m.signature.arity ≤ maxParameters ∧ d = instructions (multiCall m) := by
  obtain ⟨_, checked, done⟩ := Checked.bind_eq_ok.1 drawn
  cases done
  exact ⟨arity_le_of_checkParameters checked, rfl⟩

namespace RoutineSet

theorem dispatchMany_of_execute {m : MethodTarget} (few : m.signature.arity ≤ maxParameters)
    {t : ClassTable} {target : Value} {args : List Value} {interceptable : Bool}
    (performs : let call : Call := ⟨target, .multi args, interceptable⟩
      s.execute t .dispatch index call =
        Completion.value <$> m.perform t target (call.slots t .dispatch m.signature.params)) :
    s.dispatchMany t index target args interceptable = m.evaluate t target args := by
  rw [dispatchMany, performs, Machine.slots_multi rfl few, MethodTarget.evaluate_eq_perform]
  exact Action.map_bind_ofExcept fun _ => rfl

theorem execute_call {m : MethodTarget} (emitted : c.emit options = .ok s)
    (offered : (index, .call m) ∈ c.select Target.multi?) :
    m.signature.arity ≤ maxParameters ∧ ∀ t call, s.execute t .dispatch index call =
      Completion.value <$> m.perform t call.target (call.slots t .dispatch m.signature.params) := by
  obtain ⟨d, code, drawn, assembled, (runs : s.codeFor? .dispatch index = _)⟩ :=
    routineOf_code (Catalog.emit_routines emitted).1 offered
  obtain ⟨few, rfl⟩ := arity_le_of_multiDraft drawn
  obtain ⟨rfl, _⟩ := assemble_instructions assembled
  exact ⟨few, fun t call => execute_eq_of_runsTo runs (.multiCall (Machine.holds_toArray _))⟩

theorem dispatchMany_method {m : MethodTarget} {style : DispatchStyle}
    (emitted : c.emit options = .ok s) (present : c.get? index = some (.method m style))
    (multi : style.multiple = true) :
    m.signature.arity ≤ maxParameters ∧ ∀ t target args interceptable,
      s.dispatchMany t index target args interceptable = m.evaluate t target args := by
  obtain ⟨few, performs⟩ := execute_call emitted (Catalog.mem_select present (if_pos multi))
  exact ⟨few, fun t target args interceptable => dispatchMany_of_execute few (performs t _)⟩

/-- Dispatching a method with an argument list is calling it directly. Arguments beyond the last
parameter are ignored, every position is named as it is, and the heap afterwards shows at most one
run of the one body that the class of the target has for the method. -/
theorem dispatchMany_evaluates {m : MethodTarget} {style : DispatchStyle}
    (emitted : c.emit options = .ok s) (present : c.get? index = some (.method m style))
    (multi : style.multiple = true) (t : ClassTable) (target : Value) (args : List Value)
    (interceptable : Bool) :
    s.dispatchMany t index target args interceptable = m.evaluate t target args ∧
    s.dispatchMany t index target (args.take m.signature.arity) interceptable =
      m.evaluate t target args ∧
    (∀ position < m.signature.arity, position.toUInt16.toNat = position) ∧
    ∀ h, m.RunsAtMostOnce t target args h
      (s.dispatchMany t index target args interceptable h).2 := by
  obtain ⟨few, evaluates⟩ := dispatchMany_method emitted present multi
  refine ⟨evaluates .., ?_, fun position below => ?_, fun h => ?_⟩
  · rw [evaluates, MethodTarget.evaluate_take]
  · exact UInt16.toNat_ofNat_of_lt (Nat.lt_of_lt_of_le below few)
  · rw [evaluates]
    exact MethodTarget.evaluate_heap target args h

/-- The argument beyond the parameter is ignored. -/
theorem dispatchMany_evaluates_add : ∃ s, Counter.catalog.emit {} = .ok s ∧
    (s.dispatchMany Counter.classes 2 Counter.counter [.int 3, .null] false Counter.heap).1 =
      .ok (.int 3) := by
  obtain ⟨s, emitted⟩ : ∃ s, Counter.catalog.emit {} = .ok s := ⟨_, rfl⟩
  have present : Counter.catalog.get? 2 = some (.method Counter.add .both) := rfl
  obtain ⟨evaluates, _⟩ := dispatchMany_evaluates emitted present rfl Counter.classes
    Counter.counter [.int 3, .null] false
  refine ⟨s, emitted, ?_⟩
  rw [evaluates]
  rfl

end RoutineSet

end BeanDispatch
