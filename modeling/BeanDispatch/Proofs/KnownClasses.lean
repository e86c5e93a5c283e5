import BeanDispatch.Proofs.CallCode
import BeanDispatch.Proofs.EmittedCode
import BeanDispatch.Proofs.TableGrowth

/-! Dispatch in a class table that grows. A run asks the class table at four instructions only: at
casts, at type tests, at calls and at searches. If on its way it only asks about known classes, it
is the same in every later table, instruction by instruction and so as a whole, whatever comes out
and with whatever heap. A dispatch that starts with known values on a known heap meets nothing else,
as long as its code calls and searches through known classes and the bodies of these make no objects
of unknown ones. -/

namespace BeanDispatch

variable {t later : ClassTable} {h : Heap}

/-! ### Calls -/

namespace ClassTable.Conserves

variable (conserves : t.Conserves later)
include conserves

theorem checkReceiver {kind : CallKind} {owner : String} (known : t.contains owner = true)
    (method : Signature) {receiver : Value} (knows : t.Knows receiver) :
    later.checkReceiver kind owner method receiver =
      t.checkReceiver kind owner method receiver := by
  cases receiver with
  | object ref =>
    rw [ClassTable.checkReceiver, ClassTable.checkReceiver, conserves.require known,
      conserves.isSubtype (knows_object.1 knows)]
  | _ => rfl

theorem returns (reached : t.Reachable) {slot : Slot} (knows : t.Knows slot.boxed)
    (type : TypeName) : later.returns type slot = t.returns type slot := by
  cases type with
  | named name =>
    cases slot with
    | ref value =>
      have knowsValue : t.Knows value := knows
      rw [ClassTable.returns, ClassTable.returns, conserves.isInstance reached knowsValue]
    | _ => rfl
  | _ => rfl

theorem invoke (reached : t.Reachable) {kind : CallKind} {owner : String} {method : Signature}
    {receiver : Value} {args : List Slot} (known : t.contains owner = true)
    (knows : t.Knows receiver)
    (results : ∀ slot after, t.Ran method receiver args h (.ok slot) after → t.Knows slot.boxed) :
    later.invoke kind owner method receiver args h =
      t.invoke kind owner method receiver args h := by
  rw [ClassTable.invoke, ClassTable.invoke, conserves.checkReceiver known method knows]
  cases checked : t.checkReceiver kind owner method receiver with
  | error fault => rfl
  | ok ref =>
    cases checkReceiver_ok checked
    simp only [Action.ofExcept_ok, pure_bind, conserves.body? (knows_object.1 knows)]
    split
    · rfl
    · cases found : t.body? ref.cls method.name method.params with
      | none => rfl
      | some body =>
        dsimp only
        refine Action.bind_apply_congr rfl fun slot after ran => ?_
        rw [conserves.returns reached (results slot after ⟨ref, body, rfl, found, ran⟩)]

end ClassTable.Conserves

/-! ### Runs -/

namespace Machine

variable {index : UInt32} {call : Call} {code : Array Instruction}

/-- The classes that an instruction asks the table about, on this stack and heap, are known. -/
def AsksKnown (t : ClassTable) (stack : Stack) (h : Heap) : Instruction → Prop
  | .checkCast _ | .instanceOf _ => ∀ value rest, stack = .ref value :: rest → t.Knows value
  | .invoke _ owner method => t.contains owner = true ∧
      ∀ args receiver rest, args.length = method.arity →
        stack = args.reverse ++ .ref receiver :: rest → t.Knows receiver ∧
          ∀ slot after, t.Ran method receiver args h (.ok slot) after → t.Knows slot.boxed
  | .resolve owner _ _ => t.contains owner = true
  | _ => True

theorem popArguments_ok {n : Nat} {stack rest : Stack} {args : List Slot}
    (pops : popArguments n stack = .ok (args, rest)) :
    args.length = n ∧ stack = args.reverse ++ rest := by
  rw [popArguments] at pops
  split at pops
  · rename_i enough
    cases pops
    exact ⟨by simp [enough], by rw [List.reverse_reverse, List.take_append_drop]⟩
  · cases pops

/-- An instruction that asks about known classes gets the same answers from a later table. -/
theorem step_conserved (reached : t.Reachable) (conserves : t.Conserves later) {stack : Stack}
    {i : Instruction} (asks : AsksKnown t stack h i) :
    step later index call stack i h = step t index call stack i h := by
  cases i with
  | checkCast type =>
    simp only [step]
    cases pops : popReference stack with
    | error fault => simp only [Action.ofExcept_error, Action.throw_bind]
    | ok popped =>
      have knows := asks popped.1 popped.2 (popReference_ok pops)
      simp only [Action.ofExcept_ok, pure_bind, conserves.cast reached knows]
  | instanceOf type =>
    simp only [step]
    cases pops : popReference stack with
    | error fault => simp only [Action.ofExcept_error, Action.throw_bind]
    | ok popped =>
      have knows := asks popped.1 popped.2 (popReference_ok pops)
      simp only [Action.ofExcept_ok, pure_bind, conserves.isInstance reached knows]
  | invoke kind owner method =>
    obtain ⟨known, operands⟩ := asks
    simp only [step]
    cases popsArguments : popArguments method.arity stack with
    | error fault => simp only [Action.ofExcept_error, Action.throw_bind]
    | ok popped =>
      obtain ⟨args, mid⟩ := popped
      obtain ⟨count, rfl⟩ := popArguments_ok popsArguments
      simp only [Action.ofExcept_ok, pure_bind]
      cases pops : popReference mid with
      | error fault => simp only [Action.ofExcept_error, Action.throw_bind]
      | ok popped =>
        obtain ⟨receiver, rest⟩ := popped
        obtain ⟨knows, results⟩ := operands args receiver rest count
          (congrArg (args.reverse ++ ·) (popReference_ok pops))
        have same : later.invoke kind owner method receiver args h =
            t.invoke kind owner method receiver args h :=
          conserves.invoke reached known knows results
        simp only [Action.ofExcept_ok, pure_bind]
        exact Action.bind_apply_congr same fun _ _ _ => rfl
  | resolve owner name params =>
    simp only [step]
    rw [conserves.requiredMethod asks]
  | _ => rfl

/-- A run that asks about known classes wherever it comes by is the same in a later table. -/
theorem run_conserved (reached : t.Reachable) (conserves : t.Conserves later) {a : Configuration}
    (asks : ∀ c, Reaches t index call code a c → ∀ i, code[c.address]? = some i →
      AsksKnown t c.stack c.heap i) (fuel : Nat) :
    run later index call code fuel a.address a.stack a.heap =
      run t index call code fuel a.address a.stack a.heap := by
  induction fuel generalizing a with
  | zero => rfl
  | succ fuel ih =>
    cases here : code[a.address]? with
    | none =>
      rw [run, run]
      generalize code[a.address]? = found at here ⊢
      subst here
      rfl
    | some i =>
      have same : step later index call a.stack i a.heap = step t index call a.stack i a.heap :=
        step_conserved reached conserves (asks a .refl i here)
      have further {b : Configuration} (moves : Moves t index call code a b) :=
        ih fun c reaches => asks c (.head moves reaches)
      rw [run_succ _ _ _ _ _ _ _ here, run_succ _ _ _ _ _ _ _ here]
      refine Action.bind_apply_congr same fun next after steps => ?_
      cases next with
      | goOn stack => exact further (.goOn here steps)
      | jump target stack => exact further (.jump here steps)
      | done completion => rfl

end Machine

namespace RoutineSet

variable {s : RoutineSet} {kind : RoutineKind} {index : UInt32} {call : Call}

/-- Wherever a dispatch on the heap comes by, it asks the table about known classes. -/
def AsksKnown (s : RoutineSet) (t : ClassTable) (kind : RoutineKind) (index : UInt32) (call : Call)
    (h : Heap) : Prop :=
  ∀ code, s.codeFor? kind index = some code →
    ∀ c, Machine.Reaches t index call code ⟨0, [], h⟩ c → ∀ i, code[c.address]? = some i →
      Machine.AsksKnown t c.stack c.heap i

/-- A dispatch that asks about known classes is the same in a later table. -/
theorem execute_conserved (reached : t.Reachable) (conserves : t.Conserves later)
    (asks : s.AsksKnown t kind index call h) :
    s.execute later kind index call h = s.execute t kind index call h := by
  cases runs : s.codeFor? kind index with
  | none =>
    have absent : s.routine? kind = none := Option.map_eq_none_iff.1 runs
    rw [execute, execute, absent]
  | some code =>
    have same := Machine.run_conserved reached conserves (asks code runs)
      (Machine.allowance code)
    rw [execute_eq runs, execute_eq runs, Machine.runToEnd, Machine.runToEnd]
    exact Action.bind_apply_congr same fun _ _ _ => rfl

end RoutineSet

/-! ### Known values on known heaps -/

/-- No field refers to an object of an unknown class. -/
def Heap.KnownTo (t : ClassTable) (h : Heap) : Prop :=
  ∀ ref name slot, h.field? ref name = some slot → t.Knows slot.boxed

def Arguments.values : Arguments → List Value
  | .single value => [value]
  | .multi values => values

theorem Heap.knownTo_of_objects
    (known : ∀ fields ∈ h.objects, ∀ entry ∈ fields.entries, t.Knows entry.2.boxed) :
    h.KnownTo t := by
  intro ref name slot present
  rw [field?, fields] at present
  cases found : h.objects[ref.id]? with
  | none =>
    rw [found] at present
    cases present
  | some entries =>
    rw [found] at present
    exact known entries (Array.mem_of_getElem? found) _ (mem_of_lookupEntry present)

/-- No slot refers to an object of an unknown class. -/
def ClassTable.KnowsAll (t : ClassTable) (slots : List Slot) : Prop :=
  ∀ slot ∈ slots, t.Knows slot.boxed

theorem ClassTable.KnowsAll.push {slots : List Slot} {slot : Slot} (knows : t.KnowsAll slots)
    (knowsSlot : t.Knows slot.boxed) : t.KnowsAll (slot :: slots) :=
  List.forall_mem_cons.2 ⟨knowsSlot, knows⟩

/-- The class or interface through which an instruction calls or searches a method. -/
def Instruction.owner? : Instruction → Option String
  | .invoke _ owner _ => some owner
  | .resolve owner _ _ => some owner
  | _ => none

namespace Action

variable {α β : Type}

/-- Where the action succeeds on a known heap, it leaves a known one and a result as expected. -/
def Keeps (t : ClassTable) (expected : α → Prop) (x : Action Fault α) : Prop :=
  ∀ h a after, h.KnownTo t → x h = (.ok a, after) → expected a ∧ after.KnownTo t

theorem Keeps.bind {x : Action Fault α} {f : α → Action Fault β} {first : α → Prop}
    {expected : β → Prop} (keeps : x.Keeps t first) (rest : ∀ a, first a → (f a).Keeps t expected) :
    (x >>= f).Keeps t expected := by
  intro h b after known ends
  obtain ⟨a, mid, ran, goes⟩ := exists_of_bind_apply ends
  obtain ⟨isFirst, knownMid⟩ := keeps h a mid known ran
  exact rest a isFirst mid b after knownMid goes

theorem Keeps.pure {expected : α → Prop} {a : α} (holds : expected a) :
    (pure a : Action Fault α).Keeps t expected := by
  intro h b after known ends
  cases ends
  exact ⟨holds, known⟩

theorem Keeps.throw {expected : α → Prop} (fault : Fault) :
    (throw fault : Action Fault α).Keeps t expected := by
  intro h b after known ends
  cases ends

theorem Keeps.ofExcept {expected : α → Prop} {result : Except Fault α}
    (holds : ∀ a, result = .ok a → expected a) : (ofExcept result).Keeps t expected := by
  cases result with
  | ok a => exact .pure (holds a rfl)
  | error fault => exact .throw fault

theorem Keeps.field? (ref : Ref) (name : String) :
    (Action.field? ref name : Action Fault _).Keeps t fun found =>
      ∀ slot, found = some slot → t.Knows slot.boxed := by
  intro h found after known ends
  cases ends
  exact ⟨fun slot => known ref name slot, known⟩

theorem Keeps.store (ref : Ref) (name : String) {slot : Slot} (knows : t.Knows slot.boxed) :
    (Action.store ref name slot : Action Fault Bool).Keeps t fun _ => True := by
  intro h stored after known ends
  rw [store_apply] at ends
  cases done : h.store? ref name slot with
  | none =>
    rw [done] at ends
    cases ends
    exact ⟨trivial, known⟩
  | some next =>
    rw [done] at ends
    cases ends
    refine ⟨trivial, fun other field content present => ?_⟩
    rw [Option.getD_some, Heap.field?_store? done] at present
    split at present
    · cases present
      exact knows
    · exact known other field content present

end Action

namespace ClassTable

/-- The bodies of all methods of the table, run on a known receiver and known arguments, keep to
objects of known classes. -/
def Closed (t : ClassTable) : Prop :=
  ∀ d ∈ t.defs, ∀ m ∈ d.methods, ∀ body, m.body = some body → ∀ ref args,
    t.contains ref.cls = true → t.KnowsAll args →
      (body ref args).Keeps t fun slot => t.Knows slot.boxed

theorem exists_method_of_body? (reached : t.Reachable) {cls name : String}
    {params : List TypeName} {body : Native} (found : t.body? cls name params = some body) :
    ∃ d ∈ t.defs, ∃ m ∈ d.methods, m.body = some body := by
  obtain ⟨d, member, declares⟩ : ∃ d ∈ t.defs, d.body? name params = some body := by
    rw [body?, Option.or_eq_some_iff] at found
    rcases found with inChain | ⟨_, inInterface⟩
    · obtain ⟨d, member, declares⟩ := List.exists_of_findSome?_eq_some inChain
      exact ⟨d, (chainIn_sublist t.defs cls).subset member, declares⟩
    · obtain ⟨d, listed, declares⟩ := List.exists_of_findSome?_eq_some inInterface
      have isKnown := (listing_supertypes reached cls).known d (List.mem_filter.1 listed).1
      exact ⟨d, (mem_of_get? isKnown).1, declares⟩
  obtain ⟨m, declared, hasBody⟩ := Option.bind_eq_some_iff.1 declares
  exact ⟨d, member, m, List.mem_of_find?_eq_some declared, hasBody⟩

theorem Closed.invoke_keeps (closed : t.Closed) (reached : t.Reachable) (kind : CallKind)
    (owner : String) (method : Signature) {receiver : Value} {args : List Slot}
    (knows : t.Knows receiver) (knowsArgs : t.KnowsAll args) :
    (t.invoke kind owner method receiver args).Keeps t fun result =>
      t.KnowsAll result.toList := by
  intro h result after known ends
  have ranKeeps {slot : Slot} (ran : t.Ran method receiver args h (.ok slot) after) :
      t.Knows slot.boxed ∧ after.KnownTo t := by
    obtain ⟨ref, body, rfl, found, ran⟩ := ran
    obtain ⟨d, member, m, declared, hasBody⟩ := exists_method_of_body? reached found
    exact closed d member m declared body hasBody ref args (knows_object.1 knows) knowsArgs
      h slot after known ran
  have outcome := t.invoke_outcome kind owner method receiver args h
  rw [ends] at outcome
  cases outcome with
  | dropped ran => exact ⟨nofun, (ranKeeps ran).2⟩
  | returned ran =>
    obtain ⟨knowsSlot, knownAfter⟩ := ranKeeps ran
    exact ⟨fun slot member => List.mem_singleton.1 member ▸ knowsSlot, knownAfter⟩

end ClassTable

namespace Machine

variable {index : UInt32} {call : Call} {code : Array Instruction} {stack : Stack}

/-- What an instruction leaves to the next one is known. -/
def KnownNext (t : ClassTable) : Next → Prop
  | .goOn stack | .jump _ stack => t.KnowsAll stack
  | .done _ => True

theorem popSlot_keeps (knows : t.KnowsAll stack) :
    (Action.ofExcept (popSlot stack)).Keeps t fun popped =>
      t.Knows popped.1.boxed ∧ t.KnowsAll popped.2 := by
  cases stack with
  | nil => exact .throw _
  | cons slot rest => exact .pure (List.forall_mem_cons.1 knows)

theorem popReference_keeps (knows : t.KnowsAll stack) :
    (Action.ofExcept (popReference stack)).Keeps t fun popped =>
      t.Knows popped.1 ∧ t.KnowsAll popped.2 := by
  refine .ofExcept fun popped pops => ?_
  rw [popReference_ok pops] at knows
  exact List.forall_mem_cons.1 knows

theorem popArguments_keeps (n : Nat) (knows : t.KnowsAll stack) :
    (Action.ofExcept (popArguments n stack)).Keeps t fun popped =>
      t.KnowsAll popped.1 ∧ t.KnowsAll popped.2 := by
  refine .ofExcept fun popped pops => ?_
  rw [(popArguments_ok pops).2] at knows
  obtain ⟨taken, left⟩ := List.forall_mem_append.1 knows
  exact ⟨fun slot member => taken slot (List.mem_reverse.2 member), left⟩

theorem knows_of_singleArgument {arguments : Arguments} {value : Value}
    (knows : ∀ value ∈ arguments.values, t.Knows value)
    (found : singleArgument arguments = .ok value) : t.Knows value := by
  match arguments, found with
  | .single value, rfl => exact knows value List.mem_cons_self

theorem knows_of_positionalArgument {arguments : Arguments} {position : UInt16} {value : Value}
    (knows : ∀ value ∈ arguments.values, t.Knows value)
    (found : positionalArgument position arguments = .ok value) : t.Knows value := by
  cases arguments with
  | single value => cases found
  | multi values =>
    rw [positionalArgument] at found
    split at found
    · rename_i present
      cases found
      exact knows _ (List.mem_of_getElem? present)
    · cases found

theorem knows_of_cast {value : Value} {type : TypeName} {slot : Slot} (knows : t.Knows value)
    (casts : t.cast value type = .ok slot) : t.Knows slot.boxed := by
  cases type with
  | void => cases casts
  | named name =>
    rw [ClassTable.cast_named casts]
    exact knows
  | primitive kind =>
    simp only [ClassTable.cast] at casts
    split at casts
    · rename_i unboxed found
      cases casts
      rw [(Slot.boxed_of_unbox? found).1]
      exact knows
    · split at casts <;> cases casts

theorem step_keeps (reached : t.Reachable) (closed : t.Closed) (target : t.Knows call.target)
    (arguments : ∀ value ∈ call.arguments.values, t.Knows value)
    (knows : t.KnowsAll stack) (i : Instruction) :
    (step t index call stack i).Keeps t (KnownNext t) := by
  cases i with
  | loadTarget => exact .pure (knows.push target)
  | loadInterceptable | pushNull => exact .pure (knows.push nofun)
  | loadArgument =>
    apply Action.Keeps.bind (.ofExcept fun value => knows_of_singleArgument arguments)
    intro value knowsValue
    exact .pure (knows.push knowsValue)
  | loadPositional position =>
    apply Action.Keeps.bind (.ofExcept fun value => knows_of_positionalArgument arguments)
    intro value knowsValue
    exact .pure (knows.push knowsValue)
  | checkCast type =>
    apply (popReference_keeps knows).bind
    rintro ⟨value, rest⟩ ⟨knowsValue, knowsRest⟩
    apply Action.Keeps.bind (.ofExcept fun slot => knows_of_cast knowsValue)
    intro slot knowsSlot
    exact .pure (knowsRest.push knowsSlot)
  | instanceOf type =>
    apply (popReference_keeps knows).bind
    rintro ⟨value, rest⟩ ⟨_, knowsRest⟩
    exact .pure (knowsRest.push nofun)
  | branchFalse address =>
    apply (popSlot_keeps knows).bind
    rintro ⟨slot, rest⟩ ⟨_, knowsRest⟩
    match slot with
    | .bool true | .bool false => exact .pure knowsRest
    | .int _ | .long _ | .double _ | .ref _ => exact .throw _
  | getField owner name type =>
    apply (popReference_keeps knows).bind
    rintro ⟨value, rest⟩ ⟨_, knowsRest⟩
    apply Action.Keeps.bind (.ofExcept fun _ _ => trivial)
    intro ref _
    apply (Action.Keeps.field? ref name).bind
    intro found knowsFound
    cases found with
    | some slot => exact .pure (knowsRest.push (knowsFound slot rfl))
    | none => exact .throw _
  | putField owner name type =>
    apply (popSlot_keeps knows).bind
    rintro ⟨slot, mid⟩ ⟨knowsSlot, knowsMid⟩
    apply (popReference_keeps knowsMid).bind
    rintro ⟨value, rest⟩ ⟨_, knowsRest⟩
    apply Action.Keeps.bind (.ofExcept fun _ _ => trivial)
    intro ref _
    apply (Action.Keeps.store ref name knowsSlot).bind
    intro stored _
    cases stored with
    | true => exact .pure knowsRest
    | false => exact .throw _
  | invoke kind owner method =>
    apply (popArguments_keeps method.arity knows).bind
    rintro ⟨args, mid⟩ ⟨knowsArgs, knowsMid⟩
    apply (popReference_keeps knowsMid).bind
    rintro ⟨receiver, rest⟩ ⟨knowsReceiver, knowsRest⟩
    apply (closed.invoke_keeps reached kind owner method knowsReceiver knowsArgs).bind
    intro result knowsResult
    cases result with
    | some slot => exact .pure (knowsRest.push (knowsResult slot List.mem_cons_self))
    | none => exact .pure knowsRest
  | box kind =>
    apply (popSlot_keeps knows).bind
    rintro ⟨slot, rest⟩ ⟨knowsSlot, knowsRest⟩
    dsimp only
    split
    · exact .pure (knowsRest.push knowsSlot)
    · exact .throw _
  | ret =>
    apply (popReference_keeps knows).bind
    rintro ⟨value, rest⟩ _
    exact .pure trivial
  | resolve owner name params =>
    apply Action.Keeps.bind (.ofExcept fun _ _ => trivial)
    intro method _
    exact .pure trivial
  | unknownIndex => exact .throw _

/-- The stack and the heap of a configuration hold known values only. -/
def KnownAround (t : ClassTable) (c : Configuration) : Prop :=
  t.KnowsAll c.stack ∧ c.heap.KnownTo t

/-- A run that starts with known values comes by known values only. -/
theorem knownAround_of_reaches (reached : t.Reachable) (closed : t.Closed)
    (target : t.Knows call.target) (arguments : ∀ value ∈ call.arguments.values, t.Knows value)
    {a c : Configuration} (known : KnownAround t a) (reaches : Reaches t index call code a c) :
    KnownAround t c := by
  have preserved : ∀ a b, KnownAround t a → Moves t index call code a b → KnownAround t b := by
    rintro a b ⟨knows, knownHeap⟩ moves
    cases moves with
    | goOn _ steps | jump _ steps =>
      exact step_keeps reached closed target arguments knows _ _ _ _ knownHeap steps
  exact Reaches.preserves preserved known reaches

theorem KnownAround.asksKnown (reached : t.Reachable) (closed : t.Closed) {c : Configuration}
    (known : KnownAround t c) {i : Instruction}
    (owner : ∀ owner, i.owner? = some owner → t.contains owner = true) :
    AsksKnown t c.stack c.heap i := by
  obtain ⟨knows, knownHeap⟩ := known
  have top {value : Value} {below rest : Stack} (isStack : c.stack = below ++ .ref value :: rest) :
      t.Knows value :=
    knows (.ref value) (isStack ▸ List.mem_append_right _ List.mem_cons_self)
  cases i with
  | checkCast | instanceOf => exact fun value rest isStack => @top value [] rest isStack
  | resolve through => exact owner through rfl
  | invoke kind through method =>
    refine ⟨owner through rfl, fun args receiver rest count isStack => ⟨top isStack, ?_⟩⟩
    rintro slot after ⟨ref, body, rfl, found, ran⟩
    obtain ⟨d, member, m, declared, hasBody⟩ := ClassTable.exists_method_of_body? reached found
    have knowsArgs : t.KnowsAll args := fun slot listed =>
      knows slot (isStack ▸ List.mem_append_left _ (List.mem_reverse.2 listed))
    exact (closed d member m declared body hasBody ref args
      (ClassTable.knows_object.1 (top isStack)) knowsArgs _ slot after knownHeap ran).1
  | _ => trivial

end Machine

namespace RoutineSet

variable {s : RoutineSet} {kind : RoutineKind} {index : UInt32} {call : Call}

/-- Before a dispatch only known classes are around: the values that it is given, the heap, the
classes its code calls and searches through, and what bodies make of such values. -/
structure StartsKnown (s : RoutineSet) (t : ClassTable) (kind : RoutineKind) (index : UInt32)
    (call : Call) (h : Heap) : Prop where
  target : t.Knows call.target
  arguments : ∀ value ∈ call.arguments.values, t.Knows value
  heap : h.KnownTo t
  owners : ∀ code, s.codeFor? kind index = some code → ∀ i ∈ code, ∀ owner,
    i.owner? = some owner → t.contains owner = true
  bodies : t.Closed

theorem StartsKnown.asksKnown (starts : s.StartsKnown t kind index call h)
    (reached : t.Reachable) : s.AsksKnown t kind index call h := by
  intro code runs c reaches i here
  have known := Machine.knownAround_of_reaches reached starts.bodies starts.target
    starts.arguments (a := ⟨0, [], h⟩) ⟨nofun, starts.heap⟩ reaches
  exact known.asksKnown reached starts.bodies
    (starts.owners code runs i (Array.mem_of_getElem? here))

end RoutineSet

/-- Whatever is defined later changes nothing about what was known: neither the types of known
classes and values, nor the fields of new objects, nor the methods that a search or a call finds. So
a dispatch that asks about known classes only ends with the same result, or the same fault, and the
same heap; and it asks about no others if it starts among known ones. That a refused definition
leaves the table as it was needs no proof, since `define` gives no table then; the first part only
says that `attempt` keeps the old one. -/
theorem ClassTable.attemptAll_conserves (reached : t.Reachable) :
    (∀ d, (∀ fault, t.define d = .error fault → t.attempt d = t) ∧
      ∀ next, t.define d = .ok next → t.attempt d = next) ∧
    ∀ ds, let later := t.attemptAll ds
      (∀ cls, t.contains cls = true →
        (∀ sup, later.isSubtype cls sup = t.isSubtype cls sup) ∧
        later.layout cls = t.layout cls ∧ later.newInstance cls = t.newInstance cls ∧
        (∀ name params,
          later.requiredMethod cls name params = t.requiredMethod cls name params) ∧
        ∀ name params, later.body? cls name params = t.body? cls name params) ∧
      (∀ value, t.Knows value → ∀ type,
        later.isInstance value type = t.isInstance value type ∧
        later.cast value type = t.cast value type) ∧
      ∀ s : RoutineSet, ∀ kind index call h,
        (s.AsksKnown t kind index call h →
          s.execute later kind index call h = s.execute t kind index call h) ∧
        (s.StartsKnown t kind index call h → s.AsksKnown t kind index call h) := by
  refine ⟨fun d => ⟨fun fault refused => ?_, fun next accepted => ?_⟩, fun ds => ?_⟩
  · rw [attempt, refused]
  · rw [attempt, accepted]
  · intro later
    have conserves : t.Conserves later := .attemptAll reached ds
    refine ⟨fun cls known => ⟨conserves.isSubtype known, conserves.layout known,
        conserves.newInstance known, conserves.requiredMethod known, conserves.body? known⟩,
      fun value knows type => ⟨conserves.isInstance reached knows type,
        conserves.cast reached knows type⟩, fun s kind index call h => ⟨fun asks => ?_, ?_⟩⟩
    · exact RoutineSet.execute_conserved reached conserves asks
    · exact fun starts => starts.asksKnown reached

namespace Counter

theorem reachable_classes : classes.Reachable :=
  .define (d := { (ClassDef.ofClass "AuditedCounter").extending "Counter" with
    methods := [⟨audited.bridgeSignature, some fun _ _ => return .int 0⟩] })
    (.define (d := { ClassDef.ofClass "Counter" with
      fields := [⟨"count", .int 0⟩]
      methods := [⟨add.signature, some keep⟩] }) .builtin rfl) rfl

theorem closed_classes : classes.Closed := by
  intro d member m declared body hasBody ref args known knows
  have knowsFirst : classes.Knows (args.headD .null).boxed := by
    cases args with
    | nil => exact nofun
    | cons slot rest => exact knows slot List.mem_cons_self
  rcases List.mem_cons.1 member with rfl | member
  · cases List.mem_singleton.1 declared
    cases hasBody
    exact .pure nofun
  rcases List.mem_cons.1 member with rfl | member
  · cases List.mem_singleton.1 declared
    cases hasBody
    exact (Action.Keeps.store ref "count" knowsFirst).bind fun _ _ => .pure knowsFirst
  · have none : ∀ d ∈ ClassTable.builtin.defs, d.methods = [] := by
      simp [ClassTable.builtin, ClassDef.ofClass, ClassDef.extending]
    rw [none d member] at declared
    cases declared

theorem knownTo_heap : heap.KnownTo classes := by
  refine Heap.knownTo_of_objects fun fields object entry listed => ?_
  obtain rfl : fields = OrderedMap.ofList [("count", .int 5)] := by simpa [heap] using object
  obtain rfl := List.mem_singleton.1 listed
  exact nofun

/-- A counter counts as before when another class has been defined and a second counter class been
refused. -/
theorem attemptAll_conserves_counter : ∃ s, catalog.emit {} = .ok s ∧
    let later := classes.attemptAll [ClassDef.ofClass "Clock", ClassDef.ofClass "Counter"]
    later.contains "Clock" = true ∧
    (s.execute later .dispatch 2 ⟨counter, .multi [.int 3], false⟩ heap).1 =
      .ok (.value (.int 3)) := by
  obtain ⟨s, emitted⟩ : ∃ s, catalog.emit {} = .ok s := ⟨_, rfl⟩
  have starts : s.StartsKnown classes .dispatch 2 ⟨counter, .multi [.int 3], false⟩ heap := by
    refine ⟨ClassTable.knows_object.2 rfl, fun value given => ?_, knownTo_heap,
      fun code runs i member owner calls => ?_, closed_classes⟩
    · obtain rfl := List.mem_singleton.1 given
      exact nofun
    · cases emitted
      have isCode : (Emission.multiCall add).toArray = code := Option.some.inj runs
      subst isCode
      have owners : (Emission.multiCall add).filterMap Instruction.owner? = ["Counter"] := rfl
      have listed : owner ∈ ["Counter"] :=
        owners ▸ List.mem_filterMap.2 ⟨i, List.mem_toArray.1 member, calls⟩
      obtain rfl := List.mem_singleton.1 listed
      rfl
  obtain ⟨_, grows⟩ := ClassTable.attemptAll_conserves reachable_classes
  obtain ⟨_, _, runs⟩ := grows [ClassDef.ofClass "Clock", ClassDef.ofClass "Counter"]
  obtain ⟨same, known⟩ := runs s .dispatch 2 ⟨counter, .multi [.int 3], false⟩ heap
  refine ⟨s, emitted, by decide, ?_⟩
  rw [same (known starts)]
  cases emitted
  rfl

end Counter

end BeanDispatch
