import Mathlib.Data.List.Nodup
import BeanDispatch.Proofs.BranchTable

/-! Finding the case of an index. In an accepted table no two cases have the same key, so a plain
search through the cases in their order decides what the case of an index is, and bisection agrees
with it. Nothing about bisection matters but what every search by key promises on cases whose keys
do not descend: it answers with a position of the key, or else with the place where a case of the
key could be put in. Any search that keeps this promise finds the same cases. -/

namespace BeanDispatch

/-! ### Plain search -/

namespace Ascending

variable {cases : List Case} {c : Case} {index : UInt32}

theorem nodup_keys (ascending : Ascending cases) : (cases.map Case.key).Nodup :=
  List.pairwise_map.2 (ascending.imp UInt32.ne_of_lt)

theorem find?_eq_some_iff (ascending : Ascending cases) :
    (cases.find? fun c => c.key = index) = some c ↔ c ∈ cases ∧ c.key = index := by
  constructor
  · intro found
    exact ⟨List.mem_of_find?_eq_some found, by simpa using List.find?_some found⟩
  · rintro ⟨member, rfl⟩
    cases found : cases.find? fun d => d.key = c.key with
    | none => simpa using List.find?_eq_none.1 found c member
    | some d =>
      have same : d.key = c.key := by simpa using List.find?_some found
      rw [List.inj_on_of_nodup_map ascending.nodup_keys (List.mem_of_find?_eq_some found) member
        same]

theorem countP_le_one (ascending : Ascending cases) (index : UInt32) :
    cases.countP (fun c => c.key = index) ≤ 1 := by
  have once := List.nodup_iff_count.1 ascending.nodup_keys index
  rw [List.count, List.countP_map] at once
  exact once

end Ascending

/-! ### Searches by key -/

/-- A search by key among cases. It answers with a position of the key, or else with a place. -/
abbrev KeySearch := Array Case → UInt32 → Except Nat Nat

/-- No key is greater than a later one. -/
def Sorted (cases : List Case) : Prop := cases.Pairwise fun c d => c.key ≤ d.key

theorem Ascending.sorted {cases : List Case} (ascending : Ascending cases) : Sorted cases :=
  ascending.imp UInt32.le_of_lt

namespace KeySearch

variable {search : KeySearch}

/-- What a search promises where keys do not descend: a case of the key stands at the position, or
all keys before the place are smaller than it and all others greater. -/
structure Correct (search : KeySearch) : Prop where
  found : ∀ {cases : Array Case} {key : UInt32} {position : Nat}, Sorted cases.toList →
    search cases key = .ok position → ∃ c, cases[position]? = some c ∧ c.key = key
  missing : ∀ {cases : Array Case} {key : UInt32} {place : Nat}, Sorted cases.toList →
    search cases key = .error place → ∃ before after, cases.toList = before ++ after ∧
      before.length = place ∧ (∀ c ∈ before, c.key < key) ∧ ∀ c ∈ after, key < c.key

def case? (search : KeySearch) (cases : Array Case) (key : UInt32) : Option Case :=
  (search cases key).toOption.bind fun position => cases[position]?

theorem Correct.finds (correct : search.Correct) {cases : Array Case}
    (ascending : Ascending cases.toList) (key : UInt32) :
    search.case? cases key = cases.toList.find? fun c => c.key = key := by
  rw [case?]
  cases answer : search cases key with
  | ok position =>
    obtain ⟨c, here, same⟩ := correct.found ascending.sorted answer
    have member : c ∈ cases.toList := Array.mem_toList_iff.2 (Array.mem_of_getElem? here)
    rw [ascending.find?_eq_some_iff.2 ⟨member, same⟩]
    exact here
  | error place =>
    obtain ⟨before, after, whole, _, smaller, greater⟩ := correct.missing ascending.sorted answer
    refine (List.find?_eq_none.2 fun c member => ?_).symm
    rw [whole, List.mem_append] at member
    rcases member with first | last
    · simpa using UInt32.ne_of_lt (smaller c first)
    · simpa using (UInt32.ne_of_lt (greater c last)).symm

/-- How many keys are smaller, up to the first one that is not. -/
def place (cases : List Case) (key : UInt32) : Nat :=
  (cases.takeWhile fun c => c.key < key).length

def scan : KeySearch := fun cases key =>
  if cases[place cases.toList key]?.map Case.key = some key then .ok (place cases.toList key)
  else .error (place cases.toList key)

/-- If the key is not next after the smaller ones, all further ones are greater. -/
theorem lt_of_mem_dropWhile {cases : List Case} {key : UInt32} (sorted : Sorted cases)
    (elsewhere : cases[place cases key]?.map Case.key ≠ some key) :
    ∀ c ∈ cases.dropWhile fun c => c.key < key, key < c.key := by
  induction cases with
  | nil => simp
  | cons d rest ih =>
    obtain ⟨first, sortedRest⟩ := List.pairwise_cons.1 sorted
    by_cases smaller : d.key < key
    · simp only [place, List.takeWhile_cons, List.dropWhile_cons, smaller, decide_true, if_true,
        List.length_cons, List.getElem?_cons_succ] at elsewhere ⊢
      exact ih sortedRest elsewhere
    · simp only [place, List.takeWhile_cons, List.dropWhile_cons, smaller, decide_false,
        Bool.false_eq_true, if_false, List.length_nil, List.getElem?_cons_zero, Option.map_some,
        ne_eq, Option.some.injEq] at elsewhere ⊢
      have greater : key < d.key :=
        UInt32.lt_of_le_of_ne (UInt32.not_lt.1 smaller) fun same => elsewhere same.symm
      intro c member
      rcases List.mem_cons.1 member with rfl | later
      · exact greater
      · exact UInt32.lt_of_lt_of_le greater (first c later)

theorem correct_scan : scan.Correct where
  found := by
    intro cases key position _ answer
    unfold scan at answer
    split at answer
    · rename_i here
      cases answer
      exact Option.map_eq_some_iff.1 here
    · cases answer
  missing := by
    intro cases key place sorted answer
    unfold scan at answer
    split at answer
    · cases answer
    · rename_i elsewhere
      cases answer
      rw [← Array.getElem?_toList] at elsewhere
      refine ⟨_, _, List.takeWhile_append_dropWhile.symm, rfl, fun c member => ?_,
        lt_of_mem_dropWhile sorted elsewhere⟩
      simpa using List.all_eq_true.1 List.all_takeWhile c member

end KeySearch

namespace Routine

variable {kind : RoutineKind} {cases : List Case} {r : Routine}

/-- In an accepted table at most one case has a key, and the case of an index is the one that a
plain search finds; without one the index runs the instruction for unknown indices. Every search by
key that keeps its promise answers with positions of the table only and finds the same case. -/
theorem case?_eq_find? (accepted : assemble kind cases = .ok r) (index : UInt32) :
    cases.countP (fun c => c.key = index) ≤ 1 ∧
      r.case? index = (cases.find? fun c => c.key = index) ∧
      r.codeFor index =
        (cases.find? fun c => c.key = index).elim #[.unknownIndex] Case.code ∧
      ∀ search : KeySearch, search.Correct →
        (∀ position, search r.cases index = .ok position → position < r.cases.size) ∧
        search.case? r.cases index = r.case? index := by
  obtain ⟨none, rfl⟩ := assemble_eq_ok_iff.1 accepted
  have ascending : Ascending cases := (ascending_of_no_defect none).1
  have bisects : case? ⟨kind, cases.toArray⟩ index = cases.find? fun c => c.key = index := by
    refine Option.ext fun c => ?_
    exact (case?_eq_some_iff ascending).trans ascending.find?_eq_some_iff.symm
  refine ⟨ascending.countP_le_one index, bisects, ?_, fun search correct => ⟨?_, ?_⟩⟩
  · rw [codeFor, bisects]
    cases cases.find? fun c => c.key = index <;> rfl
  · intro position answer
    obtain ⟨c, here, _⟩ := correct.found ascending.sorted answer
    exact (Array.getElem?_eq_some_iff.1 here).1
  · rw [bisects]
    exact correct.finds ascending index

end Routine

namespace Sparse

/-- Cases at both ends of the keys and one in between. -/
def cases : List Case :=
  [⟨0, #[.pushNull, .ret]⟩, ⟨4, #[.loadTarget, .ret]⟩, ⟨4294967295, #[.loadArgument, .ret]⟩]

def routine : Routine := ⟨.dispatchOne, cases.toArray⟩

/-- The last key has its code, a key in between has none, and a scan finds both ends. -/
theorem case?_eq_find?_sparse :
    Routine.assemble .dispatchOne cases = .ok routine ∧
      routine.codeFor 4294967295 = #[.loadArgument, .ret] ∧
      routine.codeFor 2 = #[.unknownIndex] ∧
      KeySearch.scan.case? routine.cases 0 = some ⟨0, #[.pushNull, .ret]⟩ := by
  have accepted : Routine.assemble .dispatchOne cases = .ok routine := rfl
  obtain ⟨_, _, last, _⟩ := Routine.case?_eq_find? accepted 4294967295
  obtain ⟨_, _, between, _⟩ := Routine.case?_eq_find? accepted 2
  obtain ⟨_, first, _, others⟩ := Routine.case?_eq_find? accepted 0
  exact ⟨accepted, last, between, (others _ KeySearch.correct_scan).2.trans first⟩

end Sparse

end BeanDispatch
