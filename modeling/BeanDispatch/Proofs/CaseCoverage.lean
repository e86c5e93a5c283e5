import Mathlib.Data.List.Basic
import BeanDispatch.Proofs.EmissionFailure

/-! Which indices have a case. The cases of a kind of dispatch are those of the targets that qualify
for it, each under the position of its target: nothing is renumbered, so the keys of a branch table
have gaps where other targets stand. Bisection finds a case exactly at those positions. Everywhere
else, and in a routine that is absent because no target qualifies, a run fails with the index and
leaves the heap alone. The flag for interception is asked for only in the cases of intercepted
methods. -/

namespace BeanDispatch

open Emission

/-! ### Selected targets -/

namespace Catalog

variable {c : Catalog} {α β : Type} {index : UInt32}

theorem mem_select_iff (small : c.targets.length ≤ Nat.pow 2 32) {view : Target → Option α}
    {offer : α} : (index, offer) ∈ c.select view ↔
      ∃ target, c.get? index = some target ∧ view target = some offer := by
  constructor
  · intro member
    obtain ⟨⟨target, position⟩, placed, selected⟩ := List.mem_filterMap.1 member
    obtain ⟨found, offers, same⟩ := Option.map_eq_some_iff.1 selected
    cases same
    have here : c.targets[position]? = some target := List.mem_zipIdx_iff_getElem?.1 placed
    have inside : position < c.targets.length := (List.getElem?_eq_some_iff.1 here).1
    refine ⟨target, ?_, offers⟩
    rw [get?, index_exact small inside, here]
  · rintro ⟨target, present, offers⟩
    exact mem_select present offers

theorem select_map (view : Target → Option α) (f : α → β) :
    (c.select fun target => (view target).map f) =
      (c.select view).map fun offer => (offer.1, f offer.2) := by
  unfold select
  rw [List.map_filterMap]
  apply List.filterMap_congr
  intro entry _
  simp only [Option.map_map, Function.comp_def]

/-- The positions of the selected targets are all positions that the view accepts, in order. -/
theorem positions_select (small : c.targets.length ≤ Nat.pow 2 32) (view : Target → Option α) :
    (c.select view).map (fun offer => offer.1.toNat) =
      (List.range c.targets.length).filter fun position =>
        (c.targets[position]?).any fun target => (view target).isSome := by
  have positions : List.range c.targets.length = c.targets.zipIdx.map Prod.snd := by
    rw [List.zipIdx_map_snd, List.range_eq_range']
  rw [positions, select, List.filter_map, List.map_filterMap, ← List.filterMap_eq_filter,
    List.map_filterMap]
  apply List.filterMap_congr
  rintro ⟨target, position⟩ placed
  have here : c.targets[position]? = some target := List.mem_zipIdx_iff_getElem?.1 placed
  have inside : position < c.targets.length := (List.getElem?_eq_some_iff.1 here).1
  have exactly := index_exact small inside
  cases offers : view target with
  | none => simp [Option.guard, here, offers]
  | some offer => simp [Option.guard, here, offers, exactly]

end Catalog

/-! ### Cases of a kind -/

namespace Target

/-- Whether a target gets a case of this kind. -/
def qualifies (options : EmitOptions) : RoutineKind → Target → Bool
  | .dispatch, target => target.supportsMulti
  | .dispatchOne, target => target.supportsSingle
  | .targetMethod, target => options.locator && target.isMethod

def code? (options : EmitOptions) : RoutineKind → Target → Option (List Instruction)
  | .dispatch, target => target.multi?.map MultiAccess.code
  | .dispatchOne, target => target.single?.map SingleAccess.code
  | .targetMethod, target =>
    if options.locator then target.located?.map MethodTarget.searchCode else none

theorem isSome_code? (options : EmitOptions) (kind : RoutineKind) (target : Target) :
    (target.code? options kind).isSome = target.qualifies options kind := by
  cases kind with
  | dispatch | dispatchOne => exact Option.isSome_map
  | targetMethod =>
    simp only [code?, qualifies, isMethod]
    cases options.locator <;> simp

end Target

namespace Emission

/-- The routine of sound cases, absent if there are none. -/
def tableOf (kind : RoutineKind) (cases : List Case) : Option Routine :=
  if cases.isEmpty then none else some ⟨kind, cases.toArray⟩

theorem tableOf_of_mem {kind : RoutineKind} {cases : List Case} {found : Case}
    (member : found ∈ cases) : tableOf kind cases = some ⟨kind, cases.toArray⟩ := by
  cases cases with
  | nil => cases member
  | cons => rfl

theorem tableOf_eq_none_iff {kind : RoutineKind} {cases : List Case} :
    tableOf kind cases = none ↔ cases = [] := by
  simp [tableOf]

theorem routineOf_table {α : Type} {kind : RoutineKind} {offers : List (UInt32 × α)}
    {draft : UInt32 → α → Except EmitError Draft} {code : α → List Instruction}
    {routine : Option Routine} (problem? : UInt32 → α → Option EmitError)
    (ascending : offers.Pairwise fun a b => a.1 < b.1)
    (cases : ∀ index offer, (draft index offer >>= assembleCase index) =
      (problem? index offer).elim (.ok (caseOf index (code offer))) .error)
    (sound : ∀ index offer, problem? index offer = none → SelfContained (code offer))
    (emitted : routineOf kind offers draft = .ok routine) :
    routine = tableOf kind (offers.map fun offer => caseOf offer.1 (code offer.2)) := by
  rw [routineOf_eq kind problem? ascending cases sound] at emitted
  cases first : offers.findSome? fun offer => problem? offer.1 offer.2 with
  | some error =>
    rw [first] at emitted
    cases emitted
  | none =>
    rw [first] at emitted
    cases emitted
    rw [tableOf, List.isEmpty_map]

theorem cases_of_tableOf {kind : RoutineKind} {cases : List Case} {r : Routine}
    (present : tableOf kind cases = some r) : r.cases.toList = cases := by
  rw [tableOf] at present
  split at present
  · cases present
  · cases present
    rfl

end Emission

namespace Catalog

def cases (c : Catalog) (options : EmitOptions) (kind : RoutineKind) : List Case :=
  (c.select (Target.code? options kind)).map fun offer => caseOf offer.1 offer.2

variable {c : Catalog} {options : EmitOptions} {s : RoutineSet}

theorem cases_ascending (small : c.targets.length ≤ Nat.pow 2 32) (kind : RoutineKind) :
    Ascending (c.cases options kind) :=
  List.pairwise_map.2 (select_ascending small _)

theorem mem_cases_iff (small : c.targets.length ≤ Nat.pow 2 32) {kind : RoutineKind}
    {index : UInt32} {code : List Instruction} : caseOf index code ∈ c.cases options kind ↔
      ∃ target, c.get? index = some target ∧ target.code? options kind = some code := by
  rw [← mem_select_iff small, cases, List.mem_map]
  constructor
  · rintro ⟨offer, offered, same⟩
    have key : offer.1 = index := congrArg Case.key same
    have listed : offer.2 = code := by
      have arrays : offer.2.toArray = code.toArray := congrArg Case.code same
      simpa using arrays
    rw [← key, ← listed]
    exact offered
  · intro offered
    exact ⟨_, offered, rfl⟩

theorem exists_target_of_mem (small : c.targets.length ≤ Nat.pow 2 32) {kind : RoutineKind}
    {found : Case} (member : found ∈ c.cases options kind) :
    ∃ target, c.get? found.key = some target ∧
      target.code? options kind = some found.code.toList := by
  obtain ⟨key, code⟩ := found
  have listed : caseOf key code.toList ∈ c.cases options kind := member
  exact (mem_cases_iff small).1 listed

/-- The keys are the positions of the targets that qualify. -/
theorem keys_cases (small : c.targets.length ≤ Nat.pow 2 32) (kind : RoutineKind) :
    (c.cases options kind).map (fun found => found.key.toNat) =
      (List.range c.targets.length).filter fun position =>
        (c.targets[position]?).any (Target.qualifies options kind) := by
  have views : Target.qualifies options kind =
      fun target => (target.code? options kind).isSome := by
    funext target
    rw [Target.isSome_code?]
  rw [cases, List.map_map, views]
  exact positions_select small _

theorem cases_eq_nil_iff {kind : RoutineKind} :
    c.cases options kind = [] ↔
      ∀ target ∈ c.targets, target.qualifies options kind = false := by
  rw [cases, List.map_eq_nil_iff, select, List.filterMap_eq_nil_iff]
  constructor
  · intro none target member
    obtain ⟨position, inside, rfl⟩ := List.getElem_of_mem member
    have placed : (c.targets[position], position) ∈ c.targets.zipIdx :=
      List.mem_zipIdx_iff_getElem?.2 (List.getElem?_eq_getElem inside)
    have absent := none _ placed
    rw [Option.map_eq_none_iff] at absent
    rw [← Target.isSome_code?, absent]
    rfl
  · rintro fails ⟨target, position⟩ placed
    have refused := fails target (List.fst_mem_of_mem_zipIdx placed)
    rw [← Target.isSome_code?, Option.isSome_eq_false_iff, Option.isNone_iff_eq_none] at refused
    rw [refused]
    rfl

theorem cases_of_view {α : Type} {view : Target → Option α} {code : α → List Instruction}
    {kind : RoutineKind} (coded : ∀ target, target.code? options kind = (view target).map code) :
    c.cases options kind = (c.select view).map fun offer => caseOf offer.1 (code offer.2) := by
  have views : Target.code? options kind = fun target => (view target).map code := funext coded
  rw [cases, views, select_map, List.map_map]
  rfl

theorem emit_options (emitted : c.emit options = .ok s) :
    s.intercepted = c.hasIntercepted ∧ (options.locator = false → s.targetMethod = none) := by
  obtain ⟨dispatch, _, rest⟩ := Checked.bind_eq_ok.1 emitted
  obtain ⟨dispatchOne, _, rest⟩ := Checked.bind_eq_ok.1 rest
  dsimp only at rest
  cases locator : options.locator with
  | true =>
    rw [if_pos locator] at rest
    obtain ⟨targetMethod, _, done⟩ := Checked.bind_eq_ok.1 rest
    cases done
    exact ⟨rfl, nofun⟩
  | false =>
    rw [locator, if_neg Bool.false_ne_true] at rest
    cases rest
    exact ⟨rfl, fun _ => rfl⟩

theorem routine?_of_emit (small : c.targets.length ≤ Nat.pow 2 32)
    (emitted : c.emit options = .ok s) (kind : RoutineKind) :
    s.routine? kind = tableOf kind (c.cases options kind) := by
  obtain ⟨many, single, search⟩ := emit_routines emitted
  cases kind with
  | dispatch =>
    rw [cases_of_view fun _ => rfl]
    exact routineOf_table _ (select_ascending small _) (multiCase_eq c.thisType)
      (fun _ _ fine => selfContained_multi (MultiAccess.codeLength_le fine)) many
  | dispatchOne =>
    rw [cases_of_view fun _ => rfl]
    exact routineOf_table _ (select_ascending small _) singleCase_eq
      (fun _ access _ => selfContained_single access) single
  | targetMethod =>
    cases locator : options.locator with
    | true =>
      have coded : ∀ target : Target,
          target.code? options .targetMethod = target.located?.map MethodTarget.searchCode :=
        fun _ => if_pos locator
      rw [cases_of_view coded]
      exact routineOf_table (fun _ _ => none) (select_ascending small _) searchCase_eq
        (fun _ m _ => selfContained_searchCode m) (search locator)
    | false =>
      have none : c.cases options .targetMethod = [] := by
        rw [cases_eq_nil_iff]
        intro target _
        simp [Target.qualifies, locator]
      rw [none]
      exact (emit_options emitted).2 locator

end Catalog

/-! ### The flag for interception -/

namespace Emission

/-- Only the case of an intercepted method asks whether interception is on. -/
theorem loadInterceptable_mem_multi (access : MultiAccess) :
    .loadInterceptable ∈ access.code ↔ ∃ x, access = .intercept x := by
  cases access with
  | call m =>
    constructor
    · intro member
      cases asks_multiCall m _ member
    · rintro ⟨x, ⟨⟩⟩
  | intercept x => simp [MultiAccess.code, interceptedCode]

end Emission

namespace Target

theorem loadInterceptable_mem_code? {options : EmitOptions} {kind : RoutineKind} {target : Target}
    {code : List Instruction} (coded : target.code? options kind = some code)
    (asks : .loadInterceptable ∈ code) : target.isIntercepted = true := by
  cases kind with
  | dispatch =>
    obtain ⟨access, offers, rfl⟩ := Option.map_eq_some_iff.1 coded
    obtain ⟨x, rfl⟩ := (loadInterceptable_mem_multi access).1 asks
    cases target with
    | intercepted other => rfl
    | method m style => cases style <;> cases offers
    | fieldGet f | fieldSet f => cases offers
  | dispatchOne =>
    obtain ⟨access, _, rfl⟩ := Option.map_eq_some_iff.1 coded
    cases asks_single access _ asks
  | targetMethod =>
    rw [code?] at coded
    split at coded
    · obtain ⟨m, _, rfl⟩ := Option.map_eq_some_iff.1 coded
      rcases List.mem_singleton.1 asks with ⟨⟩
    · cases coded

end Target

/-! ### Coverage -/

namespace RoutineSet

def case? (s : RoutineSet) (kind : RoutineKind) (index : UInt32) : Option Case :=
  (s.routine? kind).bind (·.case? index)

/-- A run on an index without a case fails before it does anything. -/
theorem execute_of_no_case {s : RoutineSet} {kind : RoutineKind} {index : UInt32}
    (none : s.case? kind index = none) (t : ClassTable) (call : Call) :
    s.execute t kind index call = throw (.unknownIndex index) := by
  cases present : s.routine? kind with
  | none => rw [execute, present]
  | some r =>
    rw [case?, present] at none
    have default : r.codeFor index = Routine.defaultCode := by
      rw [Routine.codeFor, show r.case? index = .none from none]
    rw [execute, present]
    show Machine.runToEnd t index call (r.codeFor index) = _
    rw [default]
    have fails : Machine.RunsTo t index call Routine.defaultCode 0 []
        (throw (.unknownIndex index)) := Machine.RunsTo.fails rfl rfl
    exact fails.runToEnd_eq

end RoutineSet

namespace Catalog

variable {c : Catalog} {options : EmitOptions} {s : RoutineSet}

theorem case?_of_emit (small : c.targets.length ≤ Nat.pow 2 32)
    (emitted : c.emit options = .ok s) {kind : RoutineKind} {index : UInt32} {found : Case} :
    s.case? kind index = some found ↔ found ∈ c.cases options kind ∧ found.key = index := by
  rw [RoutineSet.case?, routine?_of_emit small emitted]
  cases table : tableOf kind (c.cases options kind) with
  | none =>
    rw [tableOf_eq_none_iff.1 table]
    simp
  | some r =>
    have ascending : Ascending r.cases.toList := by
      rw [cases_of_tableOf table]
      exact cases_ascending small kind
    rw [← cases_of_tableOf table]
    exact Routine.case?_eq_some_iff ascending

theorem isSome_case?_iff (small : c.targets.length ≤ Nat.pow 2 32)
    (emitted : c.emit options = .ok s) (kind : RoutineKind) (index : UInt32) :
    (s.case? kind index).isSome = true ↔
      ∃ target, c.get? index = some target ∧ target.qualifies options kind = true := by
  rw [Option.isSome_iff_exists]
  constructor
  · rintro ⟨found, isCase⟩
    obtain ⟨member, rfl⟩ := (case?_of_emit small emitted).1 isCase
    obtain ⟨target, present, coded⟩ := exists_target_of_mem small member
    refine ⟨target, present, ?_⟩
    rw [← Target.isSome_code?, coded]
    rfl
  · rintro ⟨target, present, qualified⟩
    rw [← Target.isSome_code?] at qualified
    obtain ⟨code, coded⟩ := Option.isSome_iff_exists.1 qualified
    have member := (mem_cases_iff small).2 ⟨target, present, coded⟩
    exact ⟨_, (case?_of_emit small emitted).2 ⟨member, rfl⟩⟩

/-- The flag of an emitted set says whether a case asks for interception. -/
theorem intercepted_iff (small : c.targets.length ≤ Nat.pow 2 32)
    (emitted : c.emit options = .ok s) :
    s.intercepted = true ↔ ∃ kind r, s.routine? kind = some r ∧
      ∃ found ∈ r.cases.toList, .loadInterceptable ∈ found.code.toList := by
  rw [(emit_options emitted).1, hasIntercepted, List.any_eq_true]
  constructor
  · rintro ⟨target, member, isIntercepted⟩
    obtain ⟨x, rfl⟩ : ∃ x, target = .intercepted x := by
      cases target with
      | intercepted x => exact ⟨x, rfl⟩
      | fieldGet f | fieldSet f | method m style => cases isIntercepted
    obtain ⟨position, inside, stands⟩ := List.getElem_of_mem member
    have present : c.get? position.toUInt32 = some (.intercepted x) := by
      rw [get?, index_exact small inside, List.getElem?_eq_getElem inside, stands]
    have listed : caseOf position.toUInt32 (MultiAccess.intercept x).code ∈
        c.cases options .dispatch := (mem_cases_iff small).2 ⟨_, present, rfl⟩
    have asks : .loadInterceptable ∈
        (caseOf position.toUInt32 (MultiAccess.intercept x).code).code.toList :=
      (loadInterceptable_mem_multi (.intercept x)).2 ⟨x, rfl⟩
    have present : s.routine? .dispatch =
        some ⟨.dispatch, (c.cases options .dispatch).toArray⟩ := by
      rw [routine?_of_emit small emitted]
      exact tableOf_of_mem listed
    exact ⟨.dispatch, _, present, _, listed, asks⟩
  · rintro ⟨kind, r, present, found, member, asks⟩
    rw [routine?_of_emit small emitted] at present
    rw [cases_of_tableOf present] at member
    obtain ⟨target, stands, coded⟩ := exists_target_of_mem small member
    exact ⟨target, List.mem_of_getElem? stands, Target.loadInterceptable_mem_code? coded asks⟩

/-- An emitted set has a case for an index exactly if the target at the index qualifies for the
kind of dispatch. The keys of a routine are the positions of those targets, ascending and not
renumbered, and the routine is absent if there are none. A run on any other index fails with the
index and leaves the heap alone, and the flag of the set says whether a case asks for
interception. -/
theorem emit_coverage (small : c.targets.length ≤ Nat.pow 2 32)
    (emitted : c.emit options = .ok s) :
    (∀ kind index, (s.case? kind index).isSome = true ↔
      ∃ target, c.get? index = some target ∧ target.qualifies options kind = true) ∧
    (∀ kind, s.routine? kind = none ↔
      ∀ target ∈ c.targets, target.qualifies options kind = false) ∧
    (∀ kind r, s.routine? kind = some r → r.keys.Pairwise (· < ·) ∧
      r.keys.map UInt32.toNat = (List.range c.targets.length).filter fun position =>
        (c.targets[position]?).any (Target.qualifies options kind)) ∧
    (∀ kind index, s.case? kind index = none → ∀ (t : ClassTable) (call : Call) (h : Heap),
      s.execute t kind index call h = (.error (.unknownIndex index), h)) ∧
    (s.intercepted = true ↔ ∃ kind r, s.routine? kind = some r ∧
      ∃ found ∈ r.cases.toList, .loadInterceptable ∈ found.code.toList) := by
  refine ⟨isSome_case?_iff small emitted, fun kind => ?_, fun kind r present => ?_,
    fun kind index none t call h => ?_, intercepted_iff small emitted⟩
  · rw [routine?_of_emit small emitted, tableOf_eq_none_iff, cases_eq_nil_iff]
  · rw [routine?_of_emit small emitted] at present
    have listed := cases_of_tableOf present
    rw [Routine.keys, listed]
    constructor
    · exact List.pairwise_map.2 (cases_ascending small kind)
    · rw [List.map_map]
      exact keys_cases small kind
  · rw [RoutineSet.execute_of_no_case none]
    rfl

/-- Of a field read, a field write, a method for both kinds of dispatch and an intercepted method,
dispatch with an argument list has the last two, and dispatch with one argument lacks the last. -/
theorem emit_coverage_counter :
    Counter.catalog.targets.length ≤ Nat.pow 2 32 ∧ ∃ s, Counter.catalog.emit {} = .ok s ∧
      (∃ r, s.routine? .dispatch = some r ∧ r.keys.map UInt32.toNat = [2, 3]) ∧
      (s.case? .dispatchOne 2).isSome = true ∧
      (∀ t call h, s.execute t .dispatchOne 3 call h = (.error (.unknownIndex 3), h)) ∧
      ∃ kind r, s.routine? kind = some r ∧
        ∃ found ∈ r.cases.toList, .loadInterceptable ∈ found.code.toList := by
  have small : Counter.catalog.targets.length ≤ Nat.pow 2 32 := by decide
  obtain ⟨s, emitted⟩ : ∃ s, Counter.catalog.emit {} = .ok s := ⟨_, rfl⟩
  obtain ⟨covered, absent, keys, fails, flag⟩ := emit_coverage small emitted
  have present : ∃ r, s.routine? .dispatch = some r := by
    rw [← Option.ne_none_iff_exists']
    intro none
    have refused := (absent .dispatch).1 none (.intercepted Counter.audited) (by decide)
    cases refused
  obtain ⟨r, present⟩ := present
  have noCase : s.case? .dispatchOne 3 = none := by
    rw [← Option.not_isSome_iff_eq_none, covered]
    rintro ⟨target, stands, qualified⟩
    cases stands
    cases qualified
  exact ⟨small, s, emitted, ⟨r, present, (keys .dispatch r present).2.trans (by decide)⟩,
    (covered .dispatchOne 2).2 ⟨_, rfl, rfl⟩, fails .dispatchOne 3 noCase,
    flag.1 (emit_options emitted).1⟩

end Catalog

end BeanDispatch
