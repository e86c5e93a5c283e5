import BeanDispatch.Proofs.CaseCoverage

/-! Catalogs that grow. A catalog is only ever added to at its end, so a later catalog begins with
the earlier one and belongs to the same type: `Begins` is this relation, and everything below
follows from it. The offers of the earlier catalog are the first offers of the later one, so its
problems are problems of the later one as well, and below its length the two have the same cases.
What comes later can add a routine that was absent, move a case within its branch table, or keep the
whole catalog from being emitted; it cannot change what an index means that was handed out before.
-/

namespace BeanDispatch

open Emission

/-- What a catalog is asked to add. -/
inductive Addition
  | target (target : Target)
  | readField (field : FieldTarget)
  | writeField (field : FieldTarget)
  | method (method : MethodTarget) (style : DispatchStyle)
  | intercepted (method : MethodTarget) (proxy bridge : String)

namespace Catalog

/-- The target that an addition stands for; an intercepted method is one of the catalog's own type.
-/
def targetOf (c : Catalog) : Addition → Target
  | .target target => target
  | .readField field => .fieldGet field
  | .writeField field => .fieldSet field
  | .method method style => .method method style
  | .intercepted method proxy bridge => c.interceptedTarget method proxy bridge

/-- The index that an addition is given, and the catalog with it. -/
def add (c : Catalog) (addition : Addition) : UInt32 × Catalog :=
  (c.nextIndex, c.append (c.targetOf addition))

/-- Makes some additions one after the other; their indices in order, and the catalog with all of
them. -/
def addAll (c : Catalog) : List Addition → List UInt32 × Catalog
  | [] => ([], c)
  | addition :: additions =>
    let first := c.add addition
    let rest := first.2.addAll additions
    (first.1 :: rest.1, rest.2)

/-! ### Earlier and later catalogs -/

/-- The later catalog has the same type and begins with the targets of the earlier one. -/
structure Begins (c later : Catalog) : Prop where
  thisType : later.thisType = c.thisType
  targets : c.targets <+: later.targets

theorem Begins.refl (c : Catalog) : c.Begins c := ⟨rfl, List.prefix_rfl⟩

theorem Begins.trans {c mid later : Catalog} (first : c.Begins mid) (second : mid.Begins later) :
    c.Begins later :=
  ⟨second.thisType.trans first.thisType, first.targets.trans second.targets⟩

theorem begins_add (c : Catalog) (addition : Addition) : c.Begins (c.add addition).2 :=
  ⟨rfl, List.prefix_append _ _⟩

theorem length_add (c : Catalog) (addition : Addition) :
    (c.add addition).2.targets.length = c.targets.length + 1 := by
  simp [add, append]

theorem begins_addAll (c : Catalog) (additions : List Addition) :
    c.Begins (c.addAll additions).2 := by
  induction additions generalizing c with
  | nil => exact .refl c
  | cons addition additions ih => exact (begins_add c addition).trans (ih _)

theorem length_addAll (c : Catalog) (additions : List Addition) :
    (c.addAll additions).2.targets.length = c.targets.length + additions.length := by
  induction additions generalizing c with
  | nil => rfl
  | cons addition additions ih =>
    have rest := ih (c.add addition).2
    rw [length_add] at rest
    rw [addAll, rest, List.length_cons]
    omega

/-- Additions are numbered on from the length of the catalog, as long as indices tell all positions
apart. -/
theorem indices_addAll {c : Catalog} {additions : List Addition}
    (small : (c.addAll additions).2.targets.length ≤ Nat.pow 2 32) :
    (c.addAll additions).1.map UInt32.toNat = List.range' c.targets.length additions.length := by
  induction additions generalizing c with
  | nil => rfl
  | cons addition additions ih =>
    have rest := ih (c := (c.add addition).2) small
    rw [length_add] at rest
    have below : c.targets.length < Nat.pow 2 32 := by
      rw [length_addAll, List.length_cons] at small
      omega
    have exactly : c.nextIndex.toNat = c.targets.length := UInt32.toNat_ofNat_of_lt below
    rw [List.length_cons, List.range'_succ, ← rest, ← exactly]
    rfl

/-! ### What an earlier catalog decides -/

namespace Begins

variable {c later : Catalog} {options : EmitOptions} {α : Type}

theorem length_le (begins : c.Begins later) : c.targets.length ≤ later.targets.length :=
  begins.targets.length_le

theorem get?_eq (begins : c.Begins later) {index : UInt32}
    (old : index.toNat < c.targets.length) : later.get? index = c.get? index := by
  obtain ⟨more, whole⟩ := begins.targets
  rw [get?, get?, ← whole, List.getElem?_append_left old]

theorem select (begins : c.Begins later) (view : Target → Option α) :
    c.select view <+: later.select view := by
  obtain ⟨more, whole⟩ := begins.targets
  rw [Catalog.select, Catalog.select, ← whole, List.zipIdx_append, List.filterMap_append]
  exact List.prefix_append _ _

theorem problem?_eq_none (begins : c.Begins later) (fine : later.problem? = none) :
    c.problem? = none := by
  rw [problem?, Option.or_eq_none_iff, List.findSome?_eq_none_iff,
    List.findSome?_eq_none_iff] at fine ⊢
  obtain ⟨many, single⟩ := fine
  rw [begins.thisType] at many
  exact ⟨fun offer offered => many offer ((begins.select _).subset offered),
    fun offer offered => single offer ((begins.select _).subset offered)⟩

theorem emit (begins : c.Begins later) (small : later.targets.length ≤ Nat.pow 2 32)
    {s : RoutineSet} (emitted : later.emit options = .ok s) :
    ∃ first, c.emit options = .ok first := by
  have fine : later.problem? = none := by
    by_contra problem
    obtain ⟨error, first⟩ := Option.ne_none_iff_exists'.1 problem
    have failed := (emit_outcome small options).1 error first
    rw [emitted] at failed
    cases failed
  have fewer : c.targets.length ≤ Nat.pow 2 32 := Nat.le_trans begins.length_le small
  exact (emit_outcome fewer options).2 (begins.problem?_eq_none fine)

/-- The cases of the earlier catalog are those of the later one that have an index below its
length. -/
theorem mem_cases_iff (begins : c.Begins later) (small : later.targets.length ≤ Nat.pow 2 32)
    {kind : RoutineKind} {found : Case} (old : found.key.toNat < c.targets.length) :
    found ∈ later.cases options kind ↔ found ∈ c.cases options kind := by
  have fewer : c.targets.length ≤ Nat.pow 2 32 := Nat.le_trans begins.length_le small
  have listed : found = caseOf found.key found.code.toList := rfl
  rw [listed, Catalog.mem_cases_iff small, Catalog.mem_cases_iff fewer, begins.get?_eq old]

theorem case?_eq (begins : c.Begins later) (small : later.targets.length ≤ Nat.pow 2 32)
    {s s' : RoutineSet} (first : c.emit options = .ok s) (second : later.emit options = .ok s')
    (kind : RoutineKind) {index : UInt32} (old : index.toNat < c.targets.length) :
    s'.case? kind index = s.case? kind index := by
  have fewer : c.targets.length ≤ Nat.pow 2 32 := Nat.le_trans begins.length_le small
  ext found
  rw [case?_of_emit small second, case?_of_emit fewer first]
  refine and_congr_left fun key => begins.mem_cases_iff small ?_
  rw [key]
  exact old

end Begins

end Catalog

/-! ### Runs -/

namespace RoutineSet

variable {s s' : RoutineSet} {kind : RoutineKind} {index : UInt32}

theorem execute_of_case {found : Case} (isCase : s.case? kind index = some found) (t : ClassTable)
    (call : Call) : s.execute t kind index call = Machine.runToEnd t index call found.code := by
  obtain ⟨r, present, here⟩ := Option.bind_eq_some_iff.1 isCase
  have runs : s.codeFor? kind index = some found.code := by
    rw [codeFor?, present, Option.map_some, Routine.codeFor, here]
  exact execute_eq runs t call

/-- What an index runs is a matter of its case alone. -/
theorem execute_congr (same : s'.case? kind index = s.case? kind index) (t : ClassTable)
    (call : Call) : s'.execute t kind index call = s.execute t kind index call := by
  cases isCase : s.case? kind index with
  | none =>
    rw [isCase] at same
    rw [execute_of_no_case isCase, execute_of_no_case same]
  | some found =>
    rw [isCase] at same
    rw [execute_of_case isCase, execute_of_case same]

end RoutineSet

namespace Catalog

/-- Additions to a catalog are numbered on from its length, and every index below it keeps its
target. If the catalog with the additions is emitted, so is the one without them, and on an old
index the two do the same in every routine, whatever the call, the classes and the heap; where only
the additions have made a routine necessary, both fail with the index. -/
theorem addAll_keeps_indices (c : Catalog) (additions : List Addition) (options : EmitOptions)
    (small : (c.addAll additions).2.targets.length ≤ Nat.pow 2 32) :
    let later := (c.addAll additions).2
    (c.addAll additions).1.map UInt32.toNat =
        List.range' c.targets.length additions.length ∧
      later.targets.length = c.targets.length + additions.length ∧
      (∀ index, index.toNat < c.targets.length → later.get? index = c.get? index) ∧
      ∀ s', later.emit options = .ok s' → ∃ s, c.emit options = .ok s ∧
        ∀ kind index, index.toNat < c.targets.length →
          (∀ t call h, s'.execute t kind index call h = s.execute t kind index call h) ∧
          (s.routine? kind = none → ∀ t call h,
            s'.execute t kind index call h = (.error (.unknownIndex index), h)) := by
  intro later
  have begins : c.Begins later := begins_addAll c additions
  refine ⟨indices_addAll small, length_addAll c additions, fun index old => begins.get?_eq old,
    fun s' second => ?_⟩
  obtain ⟨s, first⟩ := begins.emit small second
  refine ⟨s, first, fun kind index old => ?_⟩
  have same := RoutineSet.execute_congr (begins.case?_eq small first second kind old)
  refine ⟨fun t call h => congrFun (same t call) h, fun absent t call h => ?_⟩
  rw [same, RoutineSet.execute, absent]
  rfl

/-- A count to read, and later an intercepted method: only then is there a dispatch with an argument
list, and the count still has no case there. -/
theorem addAll_keeps_indices_counter :
    let c : Catalog := ⟨"CounterType", [.fieldGet Counter.count]⟩
    let additions : List Addition := [.intercepted Counter.add "AuditedCounter" "addAudited",
      .method Counter.add .both]
    (c.addAll additions).2.targets.length ≤ Nat.pow 2 32 ∧
      (c.addAll additions).1.map UInt32.toNat = [1, 2] ∧
      ∃ s s', c.emit {} = .ok s ∧ (c.addAll additions).2.emit {} = .ok s' ∧
        s.dispatch = none ∧ s'.dispatch.isSome = true ∧
        ∀ t call h, s'.execute t .dispatch 0 call h = (.error (.unknownIndex 0), h) := by
  intro c additions
  have small : (c.addAll additions).2.targets.length ≤ Nat.pow 2 32 := by decide
  obtain ⟨indices, _, _, stable⟩ := addAll_keeps_indices c additions {} small
  obtain ⟨s', second, isSome⟩ : ∃ s', (c.addAll additions).2.emit {} = .ok s' ∧
      s'.dispatch.isSome = true := ⟨_, rfl, rfl⟩
  obtain ⟨s, first, runs⟩ := stable s' second
  have absent : s.dispatch = none := by
    cases first
    rfl
  exact ⟨small, indices, s, s', first, second, absent, isSome,
    (runs .dispatch 0 (by decide)).2 absent⟩

end Catalog

end BeanDispatch
