import BeanDispatch.Proofs.DispatchedCalls
import BeanDispatch.Proofs.HeapTyping

/-! Types of results. Nothing is known about what a native body returns. The check behind the body
lets through only what fits the declared result type, emission boxes by the same type, and a bridge
has the result type of the method that it stands in for; so whatever comes out of a dispatch has the
type that the catalog says, on either path of an intercepted method and in both routines, and
whatever else a body returns is the fault of the call. -/

namespace BeanDispatch

open Emission

namespace ClassTable

variable {t : ClassTable} {type : TypeName} {slot : Slot}

/-- The value is a result of this type as callers see it: null for none, the boxed form of exactly
this primitive, and null or an instance of a class. -/
def Admits (t : ClassTable) : TypeName → Value → Prop
  | .void, value => value = .null
  | .primitive kind, value => ∃ slot, Slot.unbox? value kind = some slot
  | .named name, value => value = .null ∨ t.isInstance value (.named name) = true

/-- What may be returned is what fits the type, if there is to be a result at all. -/
theorem returns_iff : t.returns type slot = true ↔ type ≠ .void ∧ t.Fits type slot := by
  cases type with
  | void =>
    cases slot <;> exact ⟨nofun, fun notVoid => absurd rfl notVoid.1⟩
  | primitive kind =>
    constructor
    · exact fun isKind => ⟨nofun, .primitive (of_decide_eq_true isKind)⟩
    · rintro ⟨_, fits⟩
      cases fits with
      | primitive isKind => exact decide_eq_true isKind
      | null isReference => cases isReference
  | named name =>
    constructor
    · intro returned
      cases slot with
      | ref value =>
        rcases Bool.or_eq_true_iff.1 returned with isNull | isInstance
        · cases value <;> first | exact ⟨nofun, .null rfl⟩ | cases isNull
        · exact ⟨nofun, .inhabits isInstance⟩
      | _ => cases returned
    · rintro ⟨_, fits⟩
      cases fits with
      | null => rfl
      | inhabits isInstance => exact Bool.or_eq_true_iff.2 (.inr isInstance)

theorem Fits.admits (fits : t.Fits type slot) : t.Admits type slot.boxed := by
  cases fits with
  | primitive isKind => exact ⟨slot, Slot.unbox?_boxed isKind⟩
  | null isReference =>
    cases type with
    | primitive => cases isReference
    | void => exact rfl
    | named => exact .inl rfl
  | inhabits isInstance => exact .inr isInstance

end ClassTable

namespace MethodTarget

variable {m : MethodTarget} {t : ClassTable} {target value : Value} {slot : Slot}
  {slots : Except Fault (List Slot)} {h after : Heap}

theorem admits_of_settle (settles : m.settle t slot = .ok value) :
    t.Admits m.signature.result value := by
  rw [settle] at settles
  by_cases void : m.signature.returnsVoid = true
  · rw [if_pos void] at settles
    cases settles
    rw [ClassTable.isVoid_iff.1 void]
    exact rfl
  · rw [if_neg void] at settles
    by_cases returned : t.returns m.signature.result slot = true
    · rw [if_pos returned] at settles
      cases settles
      exact (ClassTable.returns_iff.1 returned).2.admits
    · rw [if_neg returned] at settles
      cases settles

theorem settle_of_misfit (notVoid : m.signature.result ≠ .void)
    (misfits : ¬t.Fits m.signature.result slot) :
    m.settle t slot = .error (.invalidReturn (memberName m.declaring m.signature.name)
      m.signature.result.text (ClassTable.typeText slot)) := by
  have returnsSome : ¬m.signature.returnsVoid = true := mt ClassTable.isVoid_iff.1 notVoid
  have notReturned : ¬t.returns m.signature.result slot = true := fun returned =>
    misfits (ClassTable.returns_iff.1 returned).2
  rw [settle, if_neg returnsSome, if_neg notReturned]

theorem admits_of_perform (performs : m.perform t target slots h = (.ok value, after)) :
    t.Admits m.signature.result value := by
  obtain ⟨a, _, _, performs⟩ := Action.exists_of_bind_apply performs
  obtain ⟨slot, _, _, settles⟩ := Action.exists_of_bind_apply performs
  exact admits_of_settle (Action.yields_ofExcept.1 ⟨_, _, settles⟩)

theorem perform_of_run {a : Activation} (active : m.activation t target slots = .ok a)
    (ran : a.run h = (.ok slot, after)) :
    m.perform t target slots h = (m.settle t slot, after) := by
  rw [perform, active, Action.ofExcept_ok, pure_bind, Action.bind_apply_ok _ ran]
  rfl

end MethodTarget

namespace RoutineSet

/-- Whatever the native bodies do, what a dispatch of a method ends with has the declared result
type of the method: it is null for a void method, the boxed form of exactly the declared primitive,
and null or an instance of the declared class. A body that returns anything else, for a method that
is not void, makes the dispatch fail with a fault that says so, and the heap stays as the body left
it. The dispatch is a call of the method or its bridge, and a kind of dispatch that the method does
not support fails before it calls anything. -/
theorem execute_types_result {c : Catalog} {options : EmitOptions} {s : RoutineSet}
    {index : UInt32} {entry : Target} {m : MethodTarget} {kind : RoutineKind}
    (emitted : c.emit options = .ok s) (present : c.get? index = some entry)
    (isMethod : entry.located? = some m) (dispatches : kind ≠ .targetMethod) (t : ClassTable)
    (call : Call) :
    (entry.qualifies options kind = false → c.targets.length ≤ Nat.pow 2 32 →
      s.execute t kind index call = throw (.unknownIndex index)) ∧
    (entry.qualifies options kind = true → ∃ callee, entry.callee? t call = some callee ∧
      callee.signature.result = m.signature.result ∧
      s.execute t kind index call = Completion.value <$>
        callee.perform t call.target (call.slots t kind callee.signature.params) ∧
      ∀ h,
        (∀ completion after, s.execute t kind index call h = (.ok completion, after) →
          ∃ value, completion = .value value ∧ t.Admits m.signature.result value) ∧
        ∀ a slot after,
          callee.activation t call.target (call.slots t kind callee.signature.params) = .ok a →
          a.run h = (.ok slot, after) → m.signature.result ≠ .void →
          ¬t.Fits m.signature.result slot →
            s.execute t kind index call h =
              (.error (.invalidReturn (memberName callee.declaring callee.signature.name)
                m.signature.result.text (ClassTable.typeText slot)), after)) := by
  refine ⟨fun excluded small => execute_of_not_qualifies emitted present small excluded t call,
    fun qualifies => ?_⟩
  obtain ⟨callee, calls, _, result⟩ := Target.exists_callee isMethod t call
  have performs := execute_performs emitted present qualifies dispatches calls
  refine ⟨callee, calls, result, performs, fun h => ⟨fun completion after ends => ?_,
    fun a slot after active ran notVoid misfits => ?_⟩⟩
  · rw [performs, map_eq_pure_bind] at ends
    obtain ⟨value, _, ran, done⟩ := Action.exists_of_bind_apply ends
    cases done
    exact ⟨value, rfl, result ▸ MethodTarget.admits_of_perform ran⟩
  · rw [← result] at notVoid misfits ⊢
    have rejected := MethodTarget.perform_of_run active ran
    rw [MethodTarget.settle_of_misfit notVoid misfits] at rejected
    rw [performs, map_eq_pure_bind, Action.bind_apply_error _ rejected]

end RoutineSet

namespace Counter

/-- Counters that answer with a truth value where a number is declared. -/
def deceivers : ClassTable where
  defs :=
    { ClassDef.ofClass "Counter" with
      methods := [⟨add.signature, some fun _ _ => return .bool true⟩] } :: ClassTable.builtin.defs

/-- A counter answers with a number, and a deceiver fails. -/
theorem execute_types_result_counter : ∃ s, catalog.emit {} = .ok s ∧
    (∀ completion after, s.execute classes .dispatch 2 ⟨counter, .multi [.int 3], false⟩ heap =
      (.ok completion, after) →
        ∃ value, completion = .value value ∧ classes.Admits (.primitive .int) value) ∧
    s.execute deceivers .dispatch 2 ⟨counter, .multi [.int 3], false⟩ heap =
      (.error (.invalidReturn "Counter.add" "int" "boolean"), heap) := by
  obtain ⟨s, emitted⟩ : ∃ s, catalog.emit {} = .ok s := ⟨_, rfl⟩
  have present : catalog.get? 2 = some (.method add .both) := rfl
  have dispatches : RoutineKind.dispatch ≠ .targetMethod := nofun
  have types (t : ClassTable) := RoutineSet.execute_types_result emitted present rfl dispatches t
    ⟨counter, .multi [.int 3], false⟩
  refine ⟨s, emitted, ?_, ?_⟩
  · obtain ⟨_, _, _, _, outcomes⟩ := (types classes).2 rfl
    exact (outcomes heap).1
  · obtain ⟨callee, calls, _, _, outcomes⟩ := (types deceivers).2 rfl
    cases calls
    have misfits : ¬deceivers.Fits (.primitive .int) (.bool true) := by
      intro fits
      cases fits with
      | primitive isKind => cases isKind
    exact (outcomes heap).2 _ _ _ rfl rfl nofun misfits

end Counter

end BeanDispatch
