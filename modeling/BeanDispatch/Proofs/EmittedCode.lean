import BeanDispatch.Emission
import BeanDispatch.Proofs.BranchTable
import BeanDispatch.Proofs.ForwardRun

/-! The code behind an index. If a catalog is emitted, an index whose target offers something to a
kind of dispatch runs the assembled draft of that offer, and nothing else: the offer is one of those
the routine was built over, its case has the index as its key, and the keys are distinct because the
routine was accepted. A draft without labels assembles to its own instructions. -/

namespace BeanDispatch

namespace Draft

variable {d : Draft} {code : List Instruction}

theorem steps_append (d e : Draft) : steps (d ++ e) = d.steps ++ e.steps :=
  List.filterMap_append

theorem assemble_ok (assembled : d.assemble = .ok code) :
    d.length ≤ maxAddress ∧ d.steps.mapM d.resolve = .ok code := by
  rw [assemble] at assembled
  split at assembled
  · cases assembled
  · rename_i small
    exact ⟨Nat.le_of_not_lt small, assembled⟩

/-- A draft with all labels placed is assembled unless it is too long. -/
theorem assemble_of_placed {f : Instruction ⊕ Label → Instruction}
    (each : ∀ line ∈ d.steps, d.resolve line = .ok (f line)) :
    d.assemble =
      if maxAddress < d.length then .error (.tooLong d.length) else .ok (d.steps.map f) := by
  rw [assemble, Checked.mapM_eq_map each]

end Draft

namespace Emission

theorem steps_instructions (is : List Instruction) :
    Draft.steps (instructions is) = is.map Sum.inl := by
  induction is with
  | nil => rfl
  | cons i is ih => exact congrArg (Sum.inl i :: ·) ih

theorem placesFrom_instructions (is : List Instruction) (rest : Draft) (address : Nat)
    (found : List (Label × Nat)) :
    Draft.placesFrom address found (instructions is ++ rest) =
      Draft.placesFrom (address + is.length) found rest := by
  induction is generalizing address with
  | nil => rfl
  | cons i is ih =>
    have next : address + 1 + is.length = address + (i :: is).length := by
      rw [List.length_cons]
      omega
    rw [← next]
    exact ih (address + 1)

theorem assemble_instructions_eq (is : List Instruction) :
    (instructions is).assemble =
      if Draft.maxAddress < is.length then .error (.tooLong is.length) else .ok is := by
  have each : ∀ line ∈ Draft.steps (instructions is),
      Draft.resolve (instructions is) line = .ok (line.elim id fun _ => .unknownIndex) := by
    intro line member
    rw [steps_instructions] at member
    obtain ⟨i, _, rfl⟩ := List.mem_map.1 member
    rfl
  have same : (Draft.steps (instructions is)).map (Sum.elim id fun _ => .unknownIndex) = is := by
    rw [steps_instructions, List.map_map]
    exact List.map_id is
  have length : Draft.length (instructions is) = is.length := by
    rw [Draft.length, steps_instructions, List.length_map]
  rw [Draft.assemble_of_placed each, length, same]

theorem assemble_instructions {is code : List Instruction}
    (assembled : (instructions is).assemble = .ok code) :
    code = is ∧ is.length ≤ Draft.maxAddress := by
  rw [assemble_instructions_eq] at assembled
  split at assembled
  · cases assembled
  · rename_i small
    cases assembled
    exact ⟨rfl, Nat.le_of_not_lt small⟩

/-- What a routine is built over has a case under its index, with the code that was drafted. -/
theorem routineOf_case {α : Type} {kind : RoutineKind} {offers : List (UInt32 × α)}
    {draft : UInt32 → α → Except EmitError Draft} {routine : Option Routine}
    (emitted : routineOf kind offers draft = .ok routine) {index : UInt32} {offer : α}
    (offered : (index, offer) ∈ offers) :
    ∃ d code r, draft index offer = .ok d ∧ d.assemble = .ok code ∧ routine = some r ∧
      r.case? index = some ⟨index, code.toArray⟩ := by
  obtain ⟨cases, drafted, built⟩ := Checked.bind_eq_ok.1 emitted
  obtain ⟨c, member, ofOffer⟩ := Checked.exists_of_mapM drafted offered
  obtain ⟨d, drawn, assembled⟩ := Checked.bind_eq_ok.1 ofOffer
  have nonempty : cases.isEmpty = false := by
    cases cases with
    | nil => cases member
    | cons => rfl
  rw [nonempty, if_neg Bool.false_ne_true] at built
  split at built
  · rename_i r accepted
    cases built
    rw [assembleCase] at assembled
    split at assembled
    · rename_i code coded
      cases assembled
      exact ⟨d, code, r, drawn, coded, rfl, Routine.case?_of_accepted accepted member⟩
    · cases assembled
  · cases built

theorem routineOf_code {α : Type} {kind : RoutineKind} {offers : List (UInt32 × α)}
    {draft : UInt32 → α → Except EmitError Draft} {routine : Option Routine}
    (emitted : routineOf kind offers draft = .ok routine) {index : UInt32} {offer : α}
    (offered : (index, offer) ∈ offers) :
    ∃ d code, draft index offer = .ok d ∧ d.assemble = .ok code ∧
      routine.map (·.codeFor index) = some code.toArray := by
  obtain ⟨d, code, r, drawn, assembled, rfl, found⟩ := routineOf_case emitted offered
  refine ⟨d, code, drawn, assembled, ?_⟩
  rw [Option.map_some, Routine.codeFor, found]

end Emission

namespace RoutineSet

/-- The code that an index runs, if there is a routine of this kind. -/
def codeFor? (s : RoutineSet) (kind : RoutineKind) (index : UInt32) : Option (Array Instruction) :=
  (s.routine? kind).map (·.codeFor index)

theorem execute_eq {s : RoutineSet} {kind : RoutineKind} {index : UInt32}
    {code : Array Instruction} (runs : s.codeFor? kind index = some code) (t : ClassTable)
    (call : Call) : s.execute t kind index call = Machine.runToEnd t index call code := by
  rw [codeFor?, Option.map_eq_some_iff] at runs
  obtain ⟨r, present, rfl⟩ := runs
  rw [execute, present]

theorem execute_eq_of_runsTo {s : RoutineSet} {kind : RoutineKind} {index : UInt32}
    {code : Array Instruction} (runs : s.codeFor? kind index = some code) {t : ClassTable}
    {call : Call} {outcome : Action Fault Completion}
    (ends : Machine.RunsTo t index call code 0 [] outcome) :
    s.execute t kind index call = outcome := by
  rw [execute_eq runs, ends.runToEnd_eq]

end RoutineSet

namespace Catalog

open Emission

variable {c : Catalog} {options : EmitOptions} {s : RoutineSet} {index : UInt32} {target : Target}

/-- The index of a target is its position, as long as indices tell all positions apart. -/
theorem index_exact (small : c.targets.length ≤ Nat.pow 2 32)
    {position : Nat} (inside : position < c.targets.length) :
    position.toUInt32.toNat = position :=
  UInt32.toNat_ofNat_of_lt (Nat.lt_of_lt_of_le inside small)

theorem mem_select {α : Type} {view : Target → Option α} {offer : α}
    (present : c.get? index = some target) (offers : view target = some offer) :
    (index, offer) ∈ c.select view := by
  have placed : (target, index.toNat) ∈ c.targets.zipIdx := List.mem_zipIdx_iff_getElem?.2 present
  refine List.mem_filterMap.2 ⟨_, placed, ?_⟩
  rw [offers]
  exact congrArg (fun i => some (i, offer)) UInt32.ofNat_toNat

theorem emit_routines (emitted : c.emit options = .ok s) :
    routineOf .dispatch (c.select Target.multi?) (multiDraft c.thisType) = .ok s.dispatch ∧
    routineOf .dispatchOne (c.select Target.single?) singleDraft = .ok s.dispatchOne ∧
    (options.locator = true →
      routineOf .targetMethod (c.select Target.located?) locatorDraft = .ok s.targetMethod) := by
  obtain ⟨dispatch, many, rest⟩ := Checked.bind_eq_ok.1 emitted
  obtain ⟨dispatchOne, single, rest⟩ := Checked.bind_eq_ok.1 rest
  dsimp only at rest
  by_cases on : options.locator = true
  · rw [if_pos on] at rest
    obtain ⟨targetMethod, search, done⟩ := Checked.bind_eq_ok.1 rest
    cases done
    exact ⟨many, single, fun _ => search⟩
  · rw [if_neg on] at rest
    cases rest
    exact ⟨many, single, fun yes => absurd yes on⟩

end Catalog

end BeanDispatch
