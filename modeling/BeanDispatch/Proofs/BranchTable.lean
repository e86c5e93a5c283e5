import BeanDispatch.Routine

/-! Branch tables. An accepted list of cases has strictly ascending keys, and in such a table
bisection finds the case of every key: the position of the case stays inside the range that is
halved, and the range cannot become empty while it holds a position. What bisection finds is a case
of the key in any table. -/

namespace BeanDispatch

/-- The keys of the cases ascend, so no key occurs twice. -/
def Ascending (cases : List Case) : Prop := cases.Pairwise fun c d => c.key < d.key

/-- A list of cases has no defect if the key of its first case comes after the previous one, the code
of that case is sound, and the rest has no defect. -/
theorem firstDefect?_cons_eq_none_iff {previous : Option UInt32} {c : Case} {rest : List Case} :
    firstDefect? previous (c :: rest) = none ↔
      (∀ key ∈ previous, key < c.key) ∧ c.defect? = none ∧
        firstDefect? (some c.key) rest = none := by
  cases previous with
  | none => simp [firstDefect?, Option.or_eq_none_iff]
  | some key =>
    rw [firstDefect?]
    split
    · rename_i below
      simp [UInt32.not_lt.2 below]
    · rename_i above
      simp [UInt32.not_le.1 above, Option.or_eq_none_iff]

theorem ascending_of_no_defect {previous : Option UInt32} {cases : List Case}
    (none : firstDefect? previous cases = none) :
    Ascending cases ∧ (∀ key ∈ previous, ∀ c ∈ cases, key < c.key) ∧
      ∀ c ∈ cases, c.defect? = .none := by
  induction cases generalizing previous with
  | nil =>
    exact ⟨.nil, fun _ _ _ absent => absurd absent List.not_mem_nil,
      fun _ absent => absurd absent List.not_mem_nil⟩
  | cons c rest ih =>
    obtain ⟨further, sound, tail⟩ := firstDefect?_cons_eq_none_iff.1 none
    obtain ⟨ascending, above, soundRest⟩ := ih tail
    have first : ∀ d ∈ rest, c.key < d.key := above c.key rfl
    refine ⟨List.pairwise_cons.2 ⟨first, ascending⟩, fun key same d member => ?_,
      List.forall_mem_cons.2 ⟨sound, soundRest⟩⟩
    rcases List.mem_cons.1 member with rfl | later
    · exact further key same
    · exact UInt32.lt_trans (further key same) (first d later)

theorem firstDefect?_eq_none {previous : Option UInt32} {cases : List Case}
    (ascending : Ascending cases) (above : ∀ key ∈ previous, ∀ c ∈ cases, key < c.key)
    (sound : ∀ c ∈ cases, c.defect? = none) : firstDefect? previous cases = none := by
  induction cases generalizing previous with
  | nil => rfl
  | cons c rest ih =>
    obtain ⟨first, ascendingRest⟩ := List.pairwise_cons.1 ascending
    obtain ⟨soundFirst, soundRest⟩ := List.forall_mem_cons.1 sound
    refine firstDefect?_cons_eq_none_iff.2
      ⟨fun key same => above key same c List.mem_cons_self, soundFirst, ?_⟩
    refine ih ascendingRest (fun key same d member => ?_) soundRest
    cases same
    exact first d member

namespace Routine

theorem bisect_succ {cases : Array Case} {key : UInt32} {fuel low high : Nat} {c : Case}
    (active : low < high) (middle : cases[(low + high) / 2]? = some c) :
    bisect cases key (fuel + 1) low high =
      if c.key = key then some c
      else if c.key < key then bisect cases key fuel ((low + high) / 2 + 1) high
      else bisect cases key fuel low ((low + high) / 2) := by
  rw [bisect, if_pos active]
  dsimp only
  rw [middle]

theorem key_lt_of_lt {cases : Array Case} (ascending : Ascending cases.toList) {i j : Nat}
    {c d : Case} (less : i < j) (first : cases[i]? = some c) (second : cases[j]? = some d) :
    c.key < d.key := by
  obtain ⟨hi, rfl⟩ := Array.getElem?_eq_some_iff.1 first
  obtain ⟨hj, rfl⟩ := Array.getElem?_eq_some_iff.1 second
  exact List.pairwise_iff_getElem.1 ascending i j hi hj less

theorem bisect_eq_some {cases : Array Case} (ascending : Ascending cases.toList) {position : Nat}
    {c : Case} (placed : cases[position]? = some c) {fuel low high : Nat} (above : low ≤ position)
    (below : position < high) (inside : high ≤ cases.size) (enough : high - low < fuel) :
    bisect cases c.key fuel low high = some c := by
  induction fuel generalizing low high with
  | zero => omega
  | succ fuel ih =>
    obtain ⟨d, middle⟩ : ∃ d, cases[(low + high) / 2]? = some d :=
      ⟨_, Array.getElem?_eq_getElem (by omega)⟩
    rw [bisect_succ (by omega) middle]
    rcases Nat.lt_trichotomy ((low + high) / 2) position with before | here | after
    · have less := key_lt_of_lt ascending before middle placed
      rw [if_neg (UInt32.ne_of_lt less), if_pos less]
      exact ih (by omega) below inside (by omega)
    · rw [here, placed] at middle
      cases middle
      rw [if_pos rfl]
    · have greater := key_lt_of_lt ascending after placed middle
      rw [if_neg (UInt32.ne_of_lt greater).symm, if_neg (UInt32.lt_asymm greater)]
      exact ih above after (by omega) (by omega)

theorem case?_of_mem {r : Routine} (ascending : Ascending r.cases.toList) {c : Case}
    (member : c ∈ r.cases.toList) : r.case? c.key = some c := by
  obtain ⟨position, inside, placed⟩ := List.getElem_of_mem member
  have found : r.cases[position]? = some c := by
    rw [← Array.getElem?_toList, List.getElem?_eq_getElem inside, placed]
  exact bisect_eq_some ascending found (Nat.zero_le _) inside (Nat.le_refl _) (by omega)

/-- Bisection finds nothing but cases of the key, in whatever order the cases stand. -/
theorem mem_of_bisect {cases : Array Case} {key : UInt32} {c : Case} {fuel low high : Nat}
    (found : bisect cases key fuel low high = some c) : c ∈ cases.toList ∧ c.key = key := by
  induction fuel generalizing low high with
  | zero => cases found
  | succ fuel ih =>
    rw [bisect] at found
    split at found
    · dsimp only at found
      split at found
      · cases found
      · rename_i d middle
        split at found
        · rename_i same
          cases found
          exact ⟨Array.mem_toList_iff.2 (Array.mem_of_getElem? middle), same⟩
        · split at found
          · exact ih found
          · exact ih found
    · cases found

theorem case?_eq_some_iff {r : Routine} (ascending : Ascending r.cases.toList) {index : UInt32}
    {c : Case} : r.case? index = some c ↔ c ∈ r.cases.toList ∧ c.key = index := by
  refine ⟨mem_of_bisect, fun ⟨member, same⟩ => ?_⟩
  rw [← same]
  exact case?_of_mem ascending member

/-- An accepted table has the cases that it was assembled from, and they have no defect. -/
theorem assemble_eq_ok_iff {kind : RoutineKind} {cases : List Case} {r : Routine} :
    assemble kind cases = .ok r ↔
      firstDefect? none cases = none ∧ r = ⟨kind, cases.toArray⟩ := by
  rw [assemble]
  cases firstDefect? none cases with
  | some defect => simp
  | none => simp [eq_comm]

/-- In an accepted table every case is found by its key. -/
theorem case?_of_accepted {kind : RoutineKind} {cases : List Case} {r : Routine}
    (accepted : assemble kind cases = .ok r) {c : Case} (member : c ∈ cases) :
    r.case? c.key = some c := by
  obtain ⟨none, rfl⟩ := assemble_eq_ok_iff.1 accepted
  exact case?_of_mem (ascending_of_no_defect none).1 member

end Routine

end BeanDispatch
