import BeanDispatch.ClassTable.Call
import BeanDispatch.Proofs.Action

/-! What a cast and a call can do. A cast to a class gives back the value it was given. A call is
refused before anything runs, or it runs one body once on the heap as it stands, and what the body
left is the heap after the call; `invoke_outcome` lists the cases, and every later fact about calls
is read off them. -/

namespace BeanDispatch.ClassTable

variable {t : ClassTable}

theorem cast_named {value : Value} {name : String} {slot : Slot}
    (casts : t.cast value (.named name) = .ok slot) : slot = .ref value := by
  simp only [cast] at casts
  split at casts
  · cases casts; rfl
  · cases casts

theorem checkReceiver_ok {kind : CallKind} {owner : String} {method : Signature} {receiver : Value}
    {ref : Ref} (checked : t.checkReceiver kind owner method receiver = .ok ref) :
    receiver = .object ref := by
  cases receiver with
  | object found =>
    simp only [checkReceiver, bind, Except.bind] at checked
    split at checked
    · cases checked
    · split at checked
      · cases checked
      · cases checked
      · split at checked
        · cases checked; rfl
        · cases checked
  | _ => cases checked

/-- The body that the class of the receiver has for the method was run once, on the heap `before`,
and ended with this outcome and the heap `after`. -/
def Ran (t : ClassTable) (method : Signature) (receiver : Value) (args : List Slot) (before : Heap)
    (outcome : Except Fault Slot) (after : Heap) : Prop :=
  ∃ ref body, receiver = .object ref ∧ t.body? ref.cls method.name method.params = some body ∧
    body ref args before = (outcome, after)

/-- How a call on the heap `before` can come out. -/
inductive CallOutcome (t : ClassTable) (owner : String) (method : Signature) (receiver : Value)
    (args : List Slot) (before : Heap) : Except Fault (Option Slot) × Heap → Prop
  | refused (fault : Fault) :
    CallOutcome t owner method receiver args before (.error fault, before)
  | failed {fault : Fault} {after : Heap}
    (ran : t.Ran method receiver args before (.error fault) after) :
    CallOutcome t owner method receiver args before (.error fault, after)
  | dropped {slot : Slot} {after : Heap} (ran : t.Ran method receiver args before (.ok slot) after)
    (void : method.result = .void) :
    CallOutcome t owner method receiver args before (.ok none, after)
  | returned {slot : Slot} {after : Heap} (ran : t.Ran method receiver args before (.ok slot) after)
    (fits : t.returns method.result slot = true) :
    CallOutcome t owner method receiver args before (.ok (some slot), after)
  | rejected {slot : Slot} {after : Heap} (ran : t.Ran method receiver args before (.ok slot) after)
    (misfits : t.returns method.result slot = false) :
    CallOutcome t owner method receiver args before
      (.error (.invalidReturn (memberName owner method.name) method.result.text (typeText slot)),
        after)

/-- The faults that a call has of its own. -/
inductive CallFault (t : ClassTable) (owner : String) (method : Signature) (receiver : Value) :
    Fault → Prop
  | nullReceiver : CallFault t owner method receiver (.nullPointer (.receiver owner method.name))
  | noReceiver (cls : String) :
    CallFault t owner method receiver (.operand (.receiver owner method.name cls))
  | unknownOwner : CallFault t owner method receiver (.unknownClass owner)
  | conflict (conflict : ClassConflict) :
    CallFault t owner method receiver (.incompatible conflict)
  | count (found : Nat) : CallFault t owner method receiver
    (.argumentCount (memberName owner method.name) method.arity found)
  | noBody {ref : Ref} (isObject : receiver = .object ref)
    (none : t.body? ref.cls method.name method.params = none) :
    CallFault t owner method receiver (.noSuchMethod ref.cls method.text)
  | badReturn (found : String) : CallFault t owner method receiver
    (.invalidReturn (memberName owner method.name) method.result.text found)

theorem isVoid_iff {type : TypeName} : type.isVoid = true ↔ type = .void := by
  cases type <;> simp [TypeName.isVoid]

theorem invoke_outcome (kind : CallKind) (owner : String) (method : Signature) (receiver : Value)
    (args : List Slot) (h : Heap) :
    t.CallOutcome owner method receiver args h (t.invoke kind owner method receiver args h) := by
  unfold invoke
  cases checked : t.checkReceiver kind owner method receiver with
  | error fault => exact .refused fault
  | ok ref =>
    simp only [Action.ofExcept_ok, pure_bind]
    by_cases count : args.length = method.arity
    · rw [if_neg (not_not_intro count)]
      cases found : t.body? ref.cls method.name method.params with
      | none => exact .refused _
      | some body =>
        dsimp only
        have ran : ∀ outcome after, body ref args h = (outcome, after) →
            t.Ran method receiver args h outcome after :=
          fun _ _ e => ⟨ref, body, checkReceiver_ok checked, found, e⟩
        rcases e : body ref args h with ⟨outcome, after⟩
        cases outcome with
        | error fault =>
          rw [Action.bind_apply_error _ e]
          exact .failed (ran _ _ e)
        | ok slot =>
          rw [Action.bind_apply_ok _ e]
          by_cases void : method.returnsVoid = true
          · rw [if_pos void]
            exact .dropped (ran _ _ e) (isVoid_iff.1 void)
          · rw [if_neg void]
            by_cases fits : t.returns method.result slot = true
            · rw [if_pos fits]
              exact .returned (ran _ _ e) fits
            · rw [if_neg fits]
              exact .rejected (ran _ _ e) (eq_false_of_ne_true fits)
    · rw [if_pos count, Action.throw_bind]
      exact .refused _

theorem isCallFault_of_checkReceiver {kind : CallKind} {owner : String} {method : Signature}
    {receiver : Value} {fault : Fault}
    (fails : t.checkReceiver kind owner method receiver = .error fault) :
    t.CallFault owner method receiver fault := by
  cases receiver with
  | null =>
    cases fails
    exact .nullReceiver
  | object ref =>
    cases found : t.get? owner with
    | none =>
      simp only [checkReceiver, require, found] at fails
      cases fails
      exact .unknownOwner
    | some d =>
      simp only [checkReceiver, require, found, bind, Except.bind] at fails
      split at fails
      · cases fails
        exact .conflict _
      · cases fails
        exact .conflict _
      · split at fails
        · cases fails
        · cases fails
          exact .conflict _
  | _ =>
    cases fails
    exact .noReceiver _

/-- A call that fails has a fault of its own, or the body that ran failed with it. -/
theorem invoke_error {kind : CallKind} {owner : String} {method : Signature} {receiver : Value}
    {args : List Slot} {h after : Heap} {fault : Fault}
    (fails : t.invoke kind owner method receiver args h = (.error fault, after)) :
    t.CallFault owner method receiver fault ∨
      t.Ran method receiver args h (.error fault) after := by
  rw [invoke] at fails
  cases checked : t.checkReceiver kind owner method receiver with
  | error refused =>
    rw [checked] at fails
    cases fails
    exact .inl (isCallFault_of_checkReceiver checked)
  | ok ref =>
    have isObject := checkReceiver_ok checked
    simp only [checked, Action.ofExcept_ok, pure_bind] at fails
    split at fails
    · cases fails
      exact .inl (.count _)
    · cases found : t.body? ref.cls method.name method.params with
      | none =>
        rw [found] at fails
        cases fails
        exact .inl (.noBody isObject found)
      | some body =>
        rw [found] at fails
        rcases Action.cases_of_bind_apply_error fails with ran | ⟨slot, mid, _, ends⟩
        · exact .inr ⟨ref, body, isObject, found, ran⟩
        · split at ends
          · cases ends
          · split at ends
            · cases ends
            · cases ends
              exact .inl (.badReturn _)

/-- A call has no result exactly for a void method, and any other result is one the method may
return. -/
theorem invoke_yields {kind : CallKind} {owner : String} {method : Signature} {receiver : Value}
    {args : List Slot} {result : Option Slot}
    (yields : (t.invoke kind owner method receiver args).Yields result) :
    (result = none ∧ method.result = .void) ∨
      ∃ slot, result = some slot ∧ t.returns method.result slot = true := by
  obtain ⟨h, after, ran⟩ := yields
  have outcome := t.invoke_outcome kind owner method receiver args h
  rw [ran] at outcome
  cases outcome with
  | dropped _ void => exact .inl ⟨rfl, void⟩
  | returned _ fits => exact .inr ⟨_, rfl, fits⟩

/-- A call leaves the heap alone or as one run of one body left it. -/
theorem invoke_heap (kind : CallKind) (owner : String) (method : Signature) (receiver : Value)
    (args : List Slot) (h : Heap) :
    (t.invoke kind owner method receiver args h).2 = h ∨
      ∃ outcome, t.Ran method receiver args h outcome
        (t.invoke kind owner method receiver args h).2 := by
  have outcome := t.invoke_outcome kind owner method receiver args h
  generalize t.invoke kind owner method receiver args h = ended at outcome ⊢
  cases outcome with
  | refused fault => exact .inl rfl
  | failed ran => exact .inr ⟨_, ran⟩
  | dropped ran => exact .inr ⟨_, ran⟩
  | returned ran => exact .inr ⟨_, ran⟩
  | rejected ran => exact .inr ⟨_, ran⟩

end BeanDispatch.ClassTable
