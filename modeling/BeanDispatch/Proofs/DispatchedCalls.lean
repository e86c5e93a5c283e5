import BeanDispatch.Proofs.CallPaths
import BeanDispatch.Proofs.CaseCoverage

/-! The call behind a dispatch. Whatever a dispatch is given, the case of a method performs one
call: of the method itself or, for an intercepted one, of what the two questions lead to. The kind
of dispatch decides only how the arguments are loaded, and a dispatch that comes without what its
case loads fails where the first argument is missing, before any body runs. -/

namespace BeanDispatch

open Emission

/-- The method that a dispatch with an argument list calls. -/
def MultiAccess.callee (t : ClassTable) (call : Call) : MultiAccess → MethodTarget
  | .call m => m
  | .intercept x => x.routed t call.interceptable call.target

/-- The method that a dispatch calls, if the target is one. -/
def Target.callee? (t : ClassTable) (call : Call) : Target → Option MethodTarget
  | .method m _ => some m
  | .intercepted x => some (x.routed t call.interceptable call.target)
  | _ => none

theorem Target.exists_callee {entry : Target} {m : MethodTarget}
    (isMethod : entry.located? = some m) (t : ClassTable) (call : Call) :
    ∃ callee, entry.callee? t call = some callee ∧
      callee.signature.params = m.signature.params ∧
      callee.signature.result = m.signature.result := by
  cases entry with
  | method n style =>
    cases isMethod
    exact ⟨_, rfl, rfl, rfl⟩
  | intercepted x =>
    cases isMethod
    exact ⟨_, rfl, x.routed_signature t call.interceptable call.target⟩
  | fieldGet | fieldSet => cases isMethod

namespace RoutineSet

variable {c : Catalog} {options : EmitOptions} {s : RoutineSet} {index : UInt32}

theorem execute_multi (emitted : c.emit options = .ok s) {access : MultiAccess}
    (offered : (index, access) ∈ c.select Target.multi?) (t : ClassTable) (call : Call) :
    let callee := access.callee t call
    callee.signature.arity ≤ maxParameters ∧ s.execute t .dispatch index call =
      Completion.value <$>
        callee.perform t call.target (call.slots t .dispatch callee.signature.params) := by
  cases access with
  | call m =>
    obtain ⟨few, performs⟩ := execute_call emitted offered
    exact ⟨few, performs t call⟩
  | intercept x => exact execute_intercept emitted offered t call

theorem dispatchMany_offer (emitted : c.emit options = .ok s) {access : MultiAccess}
    (offered : (index, access) ∈ c.select Target.multi?) (t : ClassTable) (target : Value)
    (args : List Value) (interceptable : Bool) :
    s.dispatchMany t index target args interceptable =
      (access.callee t ⟨target, .multi args, interceptable⟩).evaluate t target args := by
  obtain ⟨few, performs⟩ := execute_multi emitted offered t ⟨target, .multi args, interceptable⟩
  exact dispatchMany_of_execute few performs

theorem execute_single (emitted : c.emit options = .ok s) {m : MethodTarget}
    (offered : (index, .call m) ∈ c.select Target.single?) (t : ClassTable) (call : Call) :
    s.execute t .dispatchOne index call = Completion.value <$>
      m.perform t call.target (call.slots t .dispatchOne m.signature.params) := by
  obtain ⟨d, code, drawn, assembled, (runs : s.codeFor? .dispatchOne index = _)⟩ :=
    routineOf_code (Catalog.emit_routines emitted).2.1 offered
  obtain ⟨few, rfl⟩ := arity_le_of_singleDraft drawn
  obtain ⟨rfl, _⟩ := assemble_instructions assembled
  exact execute_eq_of_runsTo runs (.singleCall few (Machine.holds_toArray _))

/-- A dispatch of a method performs one call. -/
theorem execute_performs (emitted : c.emit options = .ok s) {entry : Target}
    (present : c.get? index = some entry) {kind : RoutineKind}
    (qualifies : entry.qualifies options kind = true) (dispatches : kind ≠ .targetMethod)
    {t : ClassTable} {call : Call} {callee : MethodTarget}
    (calls : entry.callee? t call = some callee) :
    s.execute t kind index call = Completion.value <$>
      callee.perform t call.target (call.slots t kind callee.signature.params) := by
  cases kind with
  | targetMethod => exact absurd rfl dispatches
  | dispatch =>
    cases entry with
    | method m style =>
      cases calls
      rw [Target.qualifies, Target.supportsMulti_method] at qualifies
      exact (execute_multi emitted (Catalog.mem_select present (if_pos qualifies)) t call).2
    | intercepted x =>
      cases calls
      exact (execute_multi emitted (Catalog.mem_select present rfl) t call).2
    | fieldGet | fieldSet => cases calls
  | dispatchOne =>
    cases entry with
    | method m style =>
      cases calls
      rw [Target.qualifies, Target.supportsSingle_method] at qualifies
      exact execute_single emitted (Catalog.mem_select present (if_pos qualifies)) t call
    | intercepted x => cases qualifies
    | fieldGet | fieldSet => cases calls

/-- An index whose target does not qualify for a kind of dispatch has no case. -/
theorem execute_of_not_qualifies (emitted : c.emit options = .ok s) {entry : Target}
    (present : c.get? index = some entry) (small : c.targets.length ≤ Nat.pow 2 32)
    {kind : RoutineKind} (excluded : entry.qualifies options kind = false) (t : ClassTable)
    (call : Call) : s.execute t kind index call = throw (.unknownIndex index) := by
  refine execute_of_no_case ?_ t call
  rw [← Option.not_isSome_iff_eq_none, Catalog.isSome_case?_iff small emitted]
  rintro ⟨other, found, qualifies⟩
  cases present.symm.trans found
  rw [excluded] at qualifies
  cases qualifies

end RoutineSet

end BeanDispatch
