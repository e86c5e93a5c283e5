import Mathlib.Data.List.Forall2
import Mathlib.Data.List.Nodup
import Mathlib.Data.Option.Basic

/-! Lists and options. What is collected here speaks of nothing but lists, options and relations
between their elements; the other modules use it for targets, declarations, names and types. -/

namespace BeanDispatch

variable {α β : Type}

/-! ### Lists -/

theorem map_eq_self_iff {f : α → α} {xs : List α} : xs.map f = xs ↔ ∀ x ∈ xs, f x = x := by
  induction xs with
  | nil => simp
  | cons head tail ih => simp [ih]

theorem exists_of_forall₂ {relates : α → β → Prop} {xs : List α} {ys : List β}
    (related : List.Forall₂ relates xs ys) {x : α} (member : x ∈ xs) :
    ∃ y ∈ ys, relates x y := by
  induction related with
  | nil => cases member
  | cons first _ ih =>
    rcases List.mem_cons.1 member with rfl | later
    · exact ⟨_, List.mem_cons_self, first⟩
    · obtain ⟨y, found, relates⟩ := ih later
      exact ⟨y, List.mem_cons_of_mem _ found, relates⟩

theorem getElem?_of_begins {xs all : List α} (grown : xs <+: all) {position : Nat} {x : α}
    (here : xs[position]? = some x) : all[position]? = some x := by
  obtain ⟨more, rfl⟩ := grown
  rw [List.getElem?_append_left (List.getElem?_eq_some_iff.1 here).1, here]

theorem eraseDups_of_nodup [DecidableEq α] {xs : List α} (distinct : xs.Nodup) :
    xs.eraseDups = xs := by
  induction xs with
  | nil => rfl
  | cons x xs ih =>
    obtain ⟨fresh, later⟩ := List.nodup_cons.1 distinct
    have kept : (xs.filter fun other => !other == x) = xs := by
      refine List.filter_eq_self.2 fun other member => ?_
      have differs : other ≠ x := fun same => fresh (same ▸ member)
      simp [differs]
    rw [List.eraseDups_cons, kept, ih later]

theorem filterMap_concat_of_some {f : α → Option β} {a : α} {b : β} (kept : f a = some b)
    (as : List α) : (as ++ [a]).filterMap f = as.filterMap f ++ [b] := by
  rw [List.filterMap_append, List.filterMap_cons_some kept, List.filterMap_nil]

theorem filterMap_concat_of_none {f : α → Option β} {a : α} (dropped : f a = none) (as : List α) :
    (as ++ [a]).filterMap f = as.filterMap f := by
  rw [List.filterMap_append, List.filterMap_cons_none dropped, List.filterMap_nil,
    List.append_nil]

/-- The last thing that is kept is that of the last element, if there is one. -/
theorem getLast?_filterMap_concat (f : α → Option β) (as : List α) (a : α) :
    ((as ++ [a]).filterMap f).getLast? = (f a).or (as.filterMap f).getLast? := by
  cases found : f a with
  | none => rw [filterMap_concat_of_none found, Option.none_or]
  | some b => rw [filterMap_concat_of_some found, List.getLast?_concat, Option.some_or]

/-! ### Options -/

section Options

variable {P : α → Prop} {relates weaker : α → β → Prop}

theorem forall_mem_some {a : α} (holds : P a) : ∀ b ∈ some a, P b := by
  rintro _ ⟨⟩
  exact holds

theorem getD_of_forall_mem {found : Option α} {fallback : α} (holds : ∀ a ∈ found, P a)
    (default : P fallback) : P (found.getD fallback) := by
  cases found with
  | none => exact default
  | some a => exact holds a rfl

theorem rel_mono (mono : ∀ a b, relates a b → weaker a b) {x : Option α} {y : Option β}
    (related : Option.Rel relates x y) : Option.Rel weaker x y := by
  cases related with
  | some one => exact .some (mono _ _ one)
  | none => exact .none

theorem exists_of_rel {x : Option α} {y : Option β} (related : Option.Rel relates x y) {a : α}
    (held : a ∈ x.toList) : ∃ b ∈ y.toList, relates a b := by
  cases related with
  | some one =>
    rcases List.mem_singleton.1 held with rfl
    exact ⟨_, List.mem_singleton.2 rfl, one⟩
  | none => cases held

theorem eq_some_of_rel {x : Option α} {b : β} (related : Option.Rel relates x (some b)) :
    ∃ a, x = some a ∧ relates a b := by
  cases related with
  | some one => exact ⟨_, rfl, one⟩

end Options

end BeanDispatch
