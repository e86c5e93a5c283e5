import BeanDispatch.Emission.Writer
import BeanDispatch.Proofs.CaseCode
import Mathlib.Data.List.Induction

/-! Labels and addresses. Operations on a writer write the lines of a draft, and `Writes` says what
the writer holds of them: instructions with the branches to labels open, the open branches with their
addresses, and the last place of every label. Each operation preserves it. Patching then goes through
the code from the front, so `finish` comes to what the draft is assembled to: the length is checked
first, then the first branch in the order of the code decides whose label has no place, and otherwise
every branch holds the number of instructions before the last place of its label. -/

namespace BeanDispatch

/-! ### Places in a draft -/

namespace Draft

variable {d : Draft} {label : Label}

theorem length_append (d e : Draft) : length (d ++ e) = d.length + e.length := by
  simp [length, steps_append]

theorem length_cons_of_step? {line : DraftLine} {step : Instruction ⊕ Label}
    (writes : step? line = some step) (d : Draft) : length (line :: d) = d.length + 1 := by
  simp [length, steps, writes]

theorem steps_concat (d : Draft) (line : DraftLine) :
    steps (d ++ [line]) = d.steps ++ (step? line).toList := by
  rw [steps_append]
  cases line <;> rfl

theorem placesFrom_append (d e : Draft) (address : Nat) (found : List (Label × Nat)) :
    placesFrom address found (d ++ e) =
      placesFrom (address + d.length) (placesFrom address found d) e := by
  induction d generalizing address found with
  | nil => rfl
  | cons line rest ih =>
    cases line with
    | place label => exact ih address _
    | instruction i | branchFalse label =>
      rw [length_cons_of_step? rfl, Nat.add_comm (length rest), ← Nat.add_assoc]
      exact ih (address + 1) found

/-- Another place of a label counts instead of those before. -/
theorem address?_concat (d : Draft) (line : DraftLine) (label : Label) :
    address? (d ++ [line]) label =
      if line = .place label then some d.length else d.address? label := by
  rw [address?, placesFrom_append, Nat.zero_add]
  cases line with
  | place other =>
    by_cases same : other = label
    · simp [placesFrom, same]
    · simp [placesFrom, same, List.lookup_cons, beq_false_of_ne (Ne.symm same), address?]
  | instruction i | branchFalse other => simp [placesFrom, address?]

theorem address?_eq_none_iff : d.address? label = none ↔ .place label ∉ d := by
  induction d using List.reverseRecOn with
  | nil => simp [address?, placesFrom]
  | append_singleton d line ih =>
    rw [address?_concat]
    by_cases here : line = .place label
    · simp [here]
    · simp [here, ih, Ne.symm here]

theorem address?_last (front : Draft) {back : Draft} (last : .place label ∉ back) :
    address? (front ++ .place label :: back) label = some front.length := by
  induction back using List.reverseRecOn with
  | nil => rw [address?_concat, if_pos rfl]
  | append_singleton back line ih =>
    simp only [List.mem_append, List.mem_singleton, not_or] at last
    rw [← List.cons_append, ← List.append_assoc, address?_concat, if_neg (Ne.symm last.2),
      ih last.1]

/-! ### What a draft is assembled to -/

/-- A branch to the label is the first branch to a label without a place. -/
def FirstUnplaced (d : Draft) (label : Label) : Prop :=
  ∃ before after, d = before ++ .branchFalse label :: after ∧ .place label ∉ d ∧
    ∀ earlier, .branchFalse earlier ∈ before → .place earlier ∈ d

/-- The code of a draft: as many instructions, those of the draft as they stand, and for a branch to
a label the branch to the number of instructions before the last place of the label. -/
structure Patched (d : Draft) (code : Array Instruction) : Prop where
  size : code.size = d.length
  kept : ∀ before i after, d = before ++ .instruction i :: after →
    code[length before]? = some i
  patched : ∀ before label after, d = before ++ .branchFalse label :: after →
    ∀ front back, d = front ++ .place label :: back → .place label ∉ back →
      ∃ address, code[length before]? = some (.branchFalse address) ∧
        address.toNat = length front

/-- Why a step cannot be resolved: it branches to a label without a place. -/
def problem? (d : Draft) : Instruction ⊕ Label → Option DraftError
  | .inl _ => none
  | .inr label => if d.address? label = none then some (.unplaced label) else none

/-- What a step is resolved to if it can be. -/
def resolved (d : Draft) : Instruction ⊕ Label → Instruction
  | .inl i => i
  | .inr label => .branchFalse ((d.address? label).getD 0).toUInt16

theorem resolve_eq (d : Draft) (step : Instruction ⊕ Label) :
    d.resolve step = (d.problem? step).elim (.ok (d.resolved step)) .error := by
  cases step with
  | inl i => rfl
  | inr label => cases found : d.address? label <;> simp [resolve, problem?, resolved, found]

theorem assemble_eq (d : Draft) :
    d.assemble = if maxAddress < d.length then .error (.tooLong d.length)
      else (d.steps.findSome? d.problem?).elim (.ok (d.steps.map d.resolved)) .error := by
  rw [assemble, Checked.mapM_eq_elim fun step _ => d.resolve_eq step]

theorem problem?_line {line : DraftLine} {e : DraftError} :
    (step? line).bind d.problem? = some e ↔
      ∃ label, line = .branchFalse label ∧ .place label ∉ d ∧ e = .unplaced label := by
  cases line with
  | instruction i | place label => simp [step?, problem?]
  | branchFalse label =>
    simp only [step?, Option.bind_some, problem?, address?_eq_none_iff, DraftLine.branchFalse.injEq,
      exists_eq_left', Option.ite_none_right_eq_some, Option.some.injEq]
    rw [eq_comm (a := e)]

theorem findSome?_steps {β : Type} (f : Instruction ⊕ Label → Option β) (d : Draft) :
    d.steps.findSome? f = d.findSome? fun line => (step? line).bind f := by
  induction d with
  | nil => rfl
  | cons line rest ih =>
    rw [List.findSome?_cons, ← ih, steps, List.filterMap_cons]
    cases step? line <;> rfl

theorem firstProblem_iff {e : DraftError} : d.steps.findSome? d.problem? = some e ↔
    ∃ label, e = .unplaced label ∧ d.FirstUnplaced label := by
  have none : ∀ line, (step? line).bind d.problem? = .none ↔
      ∀ label, line = .branchFalse label → .place label ∈ d := by
    intro line
    rw [Option.eq_none_iff_forall_ne_some]
    simp only [ne_eq, problem?_line, not_exists, not_and]
    exact ⟨fun placed label branches => by_contra fun absent => placed _ label branches absent rfl,
      fun placed e label branches absent => absurd (placed label branches) absent⟩
  rw [findSome?_steps, List.findSome?_eq_some_iff]
  simp only [problem?_line, none]
  constructor
  · rintro ⟨before, _, after, split, ⟨label, rfl, absent, rfl⟩, earlier⟩
    exact ⟨label, rfl, before, after, split, absent, fun label branches =>
      earlier _ branches label rfl⟩
  · rintro ⟨label, rfl, before, after, split, absent, earlier⟩
    exact ⟨before, _, after, split, ⟨label, rfl, absent, rfl⟩, fun _ inBefore label branches =>
      earlier label (branches ▸ inBefore)⟩

/-- Assembling fails with the length if it is too great, and else with the first branch to a label
without a place. -/
theorem assemble_eq_error_iff {e : DraftError} : d.assemble = .error e ↔
    (maxAddress < d.length ∧ e = .tooLong d.length) ∨
      (d.length ≤ maxAddress ∧ ∃ label, e = .unplaced label ∧ d.FirstUnplaced label) := by
  rw [assemble_eq, ← firstProblem_iff]
  by_cases long : maxAddress < d.length
  · simp [long, Nat.not_le.2 long, eq_comm]
  · cases d.steps.findSome? d.problem? <;> simp [long, Nat.le_of_not_lt long]

theorem getElem?_steps {line : DraftLine} {step : Instruction ⊕ Label}
    (writes : step? line = some step) (before after : Draft) :
    (steps (before ++ line :: after))[length before]? = some step := by
  rw [steps_append, length, List.getElem?_append_right (Nat.le_refl _)]
  simp [steps, writes]

theorem patched_of_assemble {code : List Instruction} (assembled : d.assemble = .ok code) :
    d.Patched code.toArray := by
  have small := (assemble_ok assembled).1
  have resolves : code = d.steps.map d.resolved := by
    rw [assemble_eq, if_neg (Nat.not_lt.2 small)] at assembled
    cases found : d.steps.findSome? d.problem? <;> rw [found] at assembled <;> cases assembled
    rfl
  have at_ {before line after step} (split : d = before ++ line :: after)
      (writes : step? line = some step) : code[length before]? = some (d.resolved step) := by
    rw [resolves, List.getElem?_map, split, getElem?_steps writes]
    rfl
  constructor
  · rw [List.size_toArray, resolves, List.length_map]
    rfl
  · intro before i after split
    simpa [resolved] using at_ split rfl
  · intro before label after split front back places last
    have address : d.address? label = some front.length := by rw [places, address?_last front last]
    refine ⟨front.length.toUInt16, ?_, address?_exact assembled address⟩
    simpa [resolved, address] using at_ split rfl

end Draft

/-! ### What a writer holds -/

namespace CodeWriter

def Operation.lines : Operation → Draft
  | push i => [.instruction i]
  | cast type => [.instruction (.checkCast type)]
  | normalizeResult type => Emission.instructions (Emission.normalize type)
  | newLabel => []
  | place label => [.place label]
  | branchFalse label => [.branchFalse label]

def draft (ops : List Operation) : Draft := ops.flatMap Operation.lines

/-- A step as it stands before patching. -/
def unpatched : Instruction ⊕ Label → Instruction
  | .inl i => i
  | .inr _ => .branchFalse 0

/-- The addresses of the branches to labels, from `address` on. -/
def openFrom (address : Nat) : List (Instruction ⊕ Label) → List (Nat × Label)
  | [] => []
  | .inl _ :: rest => openFrom (address + 1) rest
  | .inr label :: rest => (address, label) :: openFrom (address + 1) rest

theorem openFrom_append (address : Nat) (front back : List (Instruction ⊕ Label)) :
    openFrom address (front ++ back) =
      openFrom address front ++ openFrom (address + front.length) back := by
  induction front generalizing address with
  | nil => rfl
  | cons step rest ih =>
    have next : address + 1 + rest.length = address + (rest.length + 1) := by omega
    cases step <;> simp [openFrom, ih, next]

/-- The writer holds a draft. -/
structure Writes (w : CodeWriter) (d : Draft) : Prop where
  code : w.code.toList = d.steps.map unpatched
  pending : w.pending.toList = openFrom 0 d.steps
  places : ∀ label, w.address? label = d.address? label

theorem writes_start (index : UInt32) : Writes { index } [] := by
  constructor
  · rfl
  · rfl
  · intro label
    simp [address?, Draft.address?, Draft.placesFrom]

section Operations

variable {w : CodeWriter} {d : Draft}

theorem Writes.size_code (writes : w.Writes d) : w.code.size = d.length := by
  rw [← Array.length_toList, writes.code, List.length_map, Draft.length]

theorem Writes.push (writes : w.Writes d) (i : Instruction) :
    (w.push i).Writes (d ++ [.instruction i]) := by
  constructor
  · simp [CodeWriter.push, writes.code, Draft.steps_concat, Draft.step?, unpatched]
  · simp [CodeWriter.push, writes.pending, Draft.steps_concat, Draft.step?, openFrom_append,
      openFrom]
  · intro label
    rw [Draft.address?_concat, if_neg (by simp)]
    exact writes.places label

theorem Writes.branchFalse (writes : w.Writes d) (label : Label) :
    (w.branchFalse label).Writes (d ++ [.branchFalse label]) := by
  constructor
  · simp [CodeWriter.branchFalse, writes.code, Draft.steps_concat, Draft.step?, unpatched]
  · simp [CodeWriter.branchFalse, writes.pending, writes.size_code, Draft.length,
      Draft.steps_concat, Draft.step?, openFrom_append, openFrom]
  · intro other
    rw [Draft.address?_concat, if_neg (by simp)]
    exact writes.places other

theorem Writes.newLabel (writes : w.Writes d) : w.newLabel.2.Writes d := by
  refine ⟨writes.code, writes.pending, fun label => ?_⟩
  rw [← writes.places]
  by_cases next : label = w.places.size <;>
    simp [CodeWriter.newLabel, address?, Array.getElem?_push, next]

theorem Writes.place (writes : w.Writes d) {label : Label} (own : label < w.places.size) :
    (w.place label).Writes (d ++ [.place label]) := by
  constructor
  · simp [CodeWriter.place, writes.code, Draft.steps_concat, Draft.step?]
  · simp [CodeWriter.place, writes.pending, Draft.steps_concat, Draft.step?]
  · intro other
    rw [Draft.address?_concat, ← writes.places other]
    by_cases same : label = other
    · subst same
      simp [CodeWriter.place, address?, own, writes.size_code]
    · simp [CodeWriter.place, address?, same]

/-- An operation on labels of the writer's own writes its lines, and those after it use such labels
as well. -/
theorem Writes.perform (writes : w.Writes d) {op : Operation} {rest : List Operation}
    (own : ownLabels w.places.size (op :: rest) = true) :
    (w.perform op).Writes (d ++ op.lines) ∧
      ownLabels (w.perform op).places.size rest = true := by
  cases op with
  | push i => exact ⟨writes.push i, own⟩
  | cast type => exact ⟨writes.push _, own⟩
  | normalizeResult type =>
    cases type with
    | void => exact ⟨writes.push .pushNull, own⟩
    | primitive kind => exact ⟨writes.push (.box kind), own⟩
    | named name => exact ⟨(List.append_nil d).symm ▸ writes, own⟩
  | newLabel =>
    refine ⟨(List.append_nil d).symm ▸ writes.newLabel, ?_⟩
    simpa [CodeWriter.perform, CodeWriter.newLabel, ownLabels] using own
  | place label =>
    simp only [ownLabels, Bool.and_eq_true, decide_eq_true_iff] at own
    exact ⟨writes.place own.1, by simpa [CodeWriter.perform, CodeWriter.place] using own.2⟩
  | branchFalse label =>
    simp only [ownLabels, Bool.and_eq_true] at own
    exact ⟨writes.branchFalse label, own.2⟩

theorem Writes.performAll (writes : w.Writes d) {ops : List Operation}
    (own : ownLabels w.places.size ops = true) : (w.performAll ops).Writes (d ++ draft ops) := by
  induction ops generalizing w d with
  | nil => simpa [draft, CodeWriter.performAll] using writes
  | cons op rest ih =>
    obtain ⟨written, later⟩ := writes.perform own
    rw [draft, List.flatMap_cons, ← List.append_assoc]
    exact ih written later

/-! ### Patching -/

/-- Patching goes through the code from the front: what lies before an open branch is final. -/
theorem Writes.foldlM_patch (writes : w.Writes d) (steps : List (Instruction ⊕ Label))
    (front : List Instruction) (code : Array Instruction)
    (rest : code.toList = front ++ steps.map unpatched) :
    (openFrom front.length steps).foldlM w.patch code =
      (steps.mapM d.resolve).map fun back => (front ++ back).toArray := by
  induction steps generalizing front code with
  | nil =>
    have final : code = (front ++ []).toArray := by simpa [← Array.toList_inj] using rest
    rw [final]
    rfl
  | cons step steps ih =>
    cases step with
    | inl i =>
      have next := ih (front ++ [i]) code (by simpa [unpatched] using rest)
      rw [List.length_append, List.length_singleton] at next
      rw [openFrom, next, List.mapM_cons]
      cases steps.mapM d.resolve <;> simp [Draft.resolve] <;> rfl
    | inr label =>
      rw [openFrom, List.foldlM_cons, List.mapM_cons, patch, writes.places, Draft.resolve]
      cases d.address? label with
      | none => rfl
      | some address =>
        have next := ih (front ++ [.branchFalse address.toUInt16])
          (code.setIfInBounds front.length (.branchFalse address.toUInt16))
          (by simp [rest, unpatched])
        rw [List.length_append, List.length_singleton] at next
        show (openFrom (front.length + 1) steps).foldlM w.patch _ = _
        rw [next]
        cases steps.mapM d.resolve <;> simp <;> rfl

/-- What a writer finishes with is what its draft is assembled to. -/
theorem Writes.finish_eq (writes : w.Writes d) :
    w.finish = (d.assemble.map List.toArray).mapError (.draft w.index) := by
  have patches := writes.foldlM_patch d.steps [] w.code writes.code
  rw [finish, Draft.assemble, writes.size_code, ← Array.foldlM_toList, writes.pending]
  split
  · rfl
  · rw [List.length_nil] at patches
    rw [patches]
    rfl

end Operations

theorem index_performAll (w : CodeWriter) (ops : List Operation) :
    (w.performAll ops).index = w.index := by
  have step (w : CodeWriter) (op : Operation) : (w.perform op).index = w.index := by
    cases op with
    | normalizeResult type => cases type <;> rfl
    | push | cast | newLabel | place | branchFalse => rfl
  induction ops generalizing w with
  | nil => rfl
  | cons op rest ih => exact (ih (w.perform op)).trans (step w op)

/-- A new writer on which these operations were performed. -/
def written (index : UInt32) (ops : List Operation) : CodeWriter := performAll { index } ops

theorem finish_written (index : UInt32) {ops : List Operation} (own : ownLabels 0 ops = true) :
    (written index ops).finish =
      ((draft ops).assemble.map List.toArray).mapError (.draft index) := by
  have writes : (written index ops).Writes (draft ops) := (writes_start index).performAll own
  rw [writes.finish_eq, show (written index ops).index = index from index_performAll _ ops]

theorem finish_eq_error_iff {index : UInt32} {ops : List Operation} (own : ownLabels 0 ops = true)
    {e : EmitError} : (written index ops).finish = .error e ↔
      ∃ cause, (draft ops).assemble = .error cause ∧ e = .draft index cause := by
  rw [finish_written index own]
  cases (draft ops).assemble <;> simp [Except.map, Except.mapError, eq_comm]

/-- Whatever is written, with labels that the writer made: `finish` fails exactly if there are more
than 65535 instructions, with their number, or else if a branch is to a label without a place, with
the label of the first such branch. Otherwise it returns as many instructions as were written, each
as it was written, except that a branch to a label holds, not cut off, the number of instructions
before the last place of the label. The case that is emitted for the same lines has the same code. -/
theorem finish_patches (index : UInt32) (ops : List Operation) (own : ownLabels 0 ops = true) :
    (∀ e, (written index ops).finish = .error e ↔
      (65535 < (draft ops).length ∧ e = .draft index (.tooLong (draft ops).length)) ∨
        ((draft ops).length ≤ 65535 ∧
          ∃ label, e = .draft index (.unplaced label) ∧ (draft ops).FirstUnplaced label)) ∧
    (∀ code, (written index ops).finish = .ok code → (draft ops).Patched code) ∧
    Emission.assembleCase index (draft ops) =
      (written index ops).finish.map fun code => ⟨index, code⟩ := by
  refine ⟨fun e => ?_, fun code finished => ?_, ?_⟩
  · rw [finish_eq_error_iff own]
    simp only [Draft.assemble_eq_error_iff, Draft.maxAddress]
    constructor
    · rintro ⟨_, ⟨long, rfl⟩ | ⟨small, label, rfl, first⟩, rfl⟩
      · exact .inl ⟨long, rfl⟩
      · exact .inr ⟨small, label, rfl, first⟩
    · rintro (⟨long, rfl⟩ | ⟨small, label, rfl, first⟩)
      · exact ⟨_, .inl ⟨long, rfl⟩, rfl⟩
      · exact ⟨_, .inr ⟨small, label, rfl, first⟩, rfl⟩
  · rw [finish_written index own] at finished
    cases assembled : (draft ops).assemble with
    | error cause =>
      rw [assembled] at finished
      cases finished
    | ok lines =>
      rw [assembled] at finished
      cases finished
      exact Draft.patched_of_assemble assembled
  · rw [finish_written index own, Emission.assembleCase]
    cases (draft ops).assemble <;> rfl

/-- A first label is placed, branched back to, placed again behind a second branch and branched to
once more; a second label is placed behind the whole code. -/
def zigzag : List Operation :=
  [.newLabel, .newLabel, .place 0, .push .loadInterceptable, .branchFalse 0, .cast (.named "Proxy"),
    .branchFalse 1, .place 0, .normalizeResult .void, .normalizeResult (.named "String"),
    .branchFalse 0, .push .ret, .place 1]

/-- The first label has its last place at address 4, the second at 7, behind all instructions. -/
theorem finish_patches_zigzag :
    ownLabels 0 zigzag = true ∧ ∃ code, (written 3 zigzag).finish = .ok code ∧
      (draft zigzag).Patched code ∧ code = #[.loadInterceptable, .branchFalse 4,
        .checkCast (.named "Proxy"), .branchFalse 7, .pushNull, .branchFalse 4, .ret] := by
  have own : ownLabels 0 zigzag = true := by decide
  refine ⟨own, _, rfl, (finish_patches 3 zigzag own).2.1 _ rfl, by decide⟩

end CodeWriter

end BeanDispatch
