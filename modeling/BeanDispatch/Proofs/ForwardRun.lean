import BeanDispatch.Machine
import BeanDispatch.Proofs.Action

/-! Runs that only go forward. `Holds` says which instructions stand from an address on, and
`RunsTo` that from an address and a stack the code ends as a given action does. `RunsTo` asks for no
more steps than there are instructions left, so it composes along code that never branches back:
each rule takes one instruction off the front, and `RunsTo.runToEnd_eq` gives the outcome of a whole
case. The rules say nothing about code with backward branches, whose runs may not end. -/

namespace BeanDispatch.Machine

/-- The code has these instructions from an address on. -/
def Holds (code : Array Instruction) (address : Nat) (is : List Instruction) : Prop :=
  is <+: code.toList.drop address

section Holds

variable {code : Array Instruction} {address : Nat} {i : Instruction} {is js : List Instruction}

theorem holds_toArray (is : List Instruction) : Holds is.toArray 0 is := by
  simp [Holds]

theorem holds_cons :
    Holds code address (i :: is) ↔ code[address]? = some i ∧ Holds code (address + 1) is := by
  have step : code[address]? = (code.toList.drop address).head? := by
    rw [List.head?_drop, Array.getElem?_toList]
  rw [Holds, Holds, ← List.drop_drop, step]
  cases code.toList.drop address with
  | nil => simp
  | cons j rest => simp [List.cons_prefix_cons, eq_comm]

theorem holds_append :
    Holds code address (is ++ js) ↔
      Holds code address is ∧ Holds code (address + is.length) js := by
  induction is generalizing address with
  | nil => simp [Holds]
  | cons i is ih =>
    have next : address + 1 + is.length = address + (i :: is).length := by
      rw [List.length_cons, Nat.add_assoc, Nat.add_comm 1]
    rw [List.cons_append, holds_cons, holds_cons, ih, and_assoc, next]

theorem Holds.getElem? (holds : Holds code address is) {position : Nat}
    (below : position < is.length) : code[address + position]? = some is[position] := by
  obtain ⟨rest, whole⟩ := holds
  rw [← Array.getElem?_toList, ← List.getElem?_drop, ← whole, List.getElem?_append_left below,
    List.getElem?_eq_getElem below]

end Holds

section RunsTo

variable (t : ClassTable) (index : UInt32) (call : Call) (code : Array Instruction)

theorem run_succ (fuel address : Nat) (stack : Stack) {i : Instruction}
    (here : code[address]? = some i) :
    run t index call code (fuel + 1) address stack = (do
      match ← step t index call stack i with
      | .goOn stack => run t index call code fuel (address + 1) stack
      | .jump target stack => run t index call code fuel target.toNat stack
      | .done completion => return some completion) := by
  rw [run]
  generalize code[address]? = found at here ⊢
  subst here
  rfl

/-- From this address and stack the code ends as the action does, given at least as many steps as
there are instructions left. -/
def RunsTo (address : Nat) (stack : Stack) (outcome : Action Fault Completion) : Prop :=
  ∀ fuel, code.size ≤ address + fuel →
    run t index call code fuel address stack = some <$> outcome

variable {t index call code} {address : Nat} {stack : Stack} {i : Instruction}

theorem exists_fuel {fuel : Nat} (here : code[address]? = some i)
    (enough : code.size ≤ address + fuel) : ∃ left, fuel = left + 1 := by
  have inside : address < code.size := (Array.getElem?_eq_some_iff.1 here).1
  exact ⟨fuel - 1, by omega⟩

/-- An instruction that goes on with what it computed. -/
theorem RunsTo.goOn {β : Type} {x : Action Fault β} {f : β → Stack}
    {rest : β → Action Fault Completion} (here : code[address]? = some i)
    (steps : step t index call stack i = x >>= fun b => pure (.goOn (f b)))
    (goes : ∀ b, x.Yields b → RunsTo t index call code (address + 1) (f b) (rest b)) :
    RunsTo t index call code address stack (x >>= rest) := by
  intro fuel enough
  obtain ⟨left, rfl⟩ := exists_fuel here enough
  rw [run_succ t index call code left address stack here, steps]
  simp only [bind_assoc, pure_bind, map_bind]
  exact Action.bind_congr_of_yields fun b yields => goes b yields left (by omega)

theorem RunsTo.goOn_pure {next : Stack} {outcome : Action Fault Completion}
    (here : code[address]? = some i) (steps : step t index call stack i = pure (.goOn next))
    (goes : RunsTo t index call code (address + 1) next outcome) :
    RunsTo t index call code address stack outcome := by
  intro fuel enough
  obtain ⟨left, rfl⟩ := exists_fuel here enough
  rw [run_succ t index call code left address stack here, steps, pure_bind]
  exact goes left (by omega)

theorem RunsTo.fails {fault : Fault} (here : code[address]? = some i)
    (steps : step t index call stack i = throw fault) :
    RunsTo t index call code address stack (throw fault) := by
  intro fuel enough
  obtain ⟨left, rfl⟩ := exists_fuel here enough
  rw [run_succ t index call code left address stack here, steps]
  rfl

theorem RunsTo.done {β : Type} {x : Action Fault β} {f : β → Completion}
    (here : code[address]? = some i)
    (steps : step t index call stack i = x >>= fun b => pure (.done (f b))) :
    RunsTo t index call code address stack (f <$> x) := by
  intro fuel enough
  obtain ⟨left, rfl⟩ := exists_fuel here enough
  rw [run_succ t index call code left address stack here, steps]
  simp only [bind_assoc, pure_bind, map_eq_pure_bind]

theorem RunsTo.runToEnd_eq {outcome : Action Fault Completion}
    (runs : RunsTo t index call code 0 [] outcome) : runToEnd t index call code = outcome := by
  have enough : code.size ≤ 0 + allowance code := by
    unfold allowance
    omega
  rw [runToEnd, runs _ enough]
  simp only [map_eq_pure_bind, bind_assoc, pure_bind, bind_pure]

end RunsTo

end BeanDispatch.Machine
