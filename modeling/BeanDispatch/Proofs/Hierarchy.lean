import BeanDispatch.ClassTable
import BeanDispatch.Proofs.Action
import Mathlib.Data.List.Flatten
import Mathlib.Data.List.Nodup

/-! Superclasses. The names in a table that definitions lead to are distinct, so the superclasses of
a class are the same wherever the class is met: whoever reaches a class through superclasses has all
of its superclasses as well, is a subtype of it, and has its fields. Where no class declares a field
of its superclasses again, a new object has every field with the content that its one declaration
gives it. -/

namespace BeanDispatch

namespace ClassTable

/-! ### Definitions -/

/-- The tables that definitions lead to. -/
inductive Reachable : ClassTable → Prop
  | builtin : Reachable .builtin
  | define {t next : ClassTable} {d : ClassDef} (reached : Reachable t)
    (defined : t.define d = .ok next) : Reachable next

variable {t next : ClassTable} {d : ClassDef} {cls name : String}

/-- A class that is defined is new, and comes before the others. -/
theorem define_ok (defined : t.define d = .ok next) :
    t.contains d.name = false ∧ next = ⟨d :: t.defs⟩ := by
  rw [define] at defined
  cases known : t.contains d.name with
  | true =>
    rw [known] at defined
    cases defined
  | false =>
    rw [known] at defined
    obtain ⟨_, _, rest⟩ := Checked.bind_eq_ok.1 defined
    refine ⟨rfl, ?_⟩
    split at rest
    · obtain ⟨above, _, rest⟩ := Checked.bind_eq_ok.1 rest
      cases isInterface : above.isInterface with
      | true =>
        rw [isInterface] at rest
        cases rest
      | false =>
        rw [isInterface] at rest
        exact (Except.ok.inj rest).symm
    · exact (Except.ok.inj rest).symm

theorem contains_eq_false_iff : t.contains name = false ↔ name ∉ t.defs.map ClassDef.name := by
  simp [contains, get?, List.find?_eq_none]

theorem nodup_names (reached : t.Reachable) : (t.defs.map ClassDef.name).Nodup := by
  induction reached with
  | builtin => decide
  | define _ defined ih =>
    obtain ⟨fresh, rfl⟩ := define_ok defined
    exact List.nodup_cons.2 ⟨contains_eq_false_iff.1 fresh, ih⟩

/-! ### Chains -/

theorem chainIn_sublist (defs : List ClassDef) (cls : String) :
    (chainIn defs cls).Sublist defs := by
  induction defs generalizing cls with
  | nil => exact .slnil
  | cons first older ih =>
    rw [chainIn]
    split
    · split
      · exact (ih _).cons_cons first
      · exact (List.nil_sublist older).cons_cons first
    · exact (ih cls).cons first

theorem superclass_mem_parents {superclass : String} (extended : d.superclass = some superclass) :
    superclass ∈ d.parents :=
  List.mem_append_left _ (Option.mem_toList.2 extended)

theorem isSubtypeIn_of_mem_chainIn {defs : List ClassDef} (member : d ∈ chainIn defs cls) :
    isSubtypeIn defs cls d.name = true := by
  induction defs generalizing cls with
  | nil => cases member
  | cons first older ih =>
    rw [chainIn] at member
    rw [isSubtypeIn]
    split at member
    · rename_i here
      rcases List.mem_cons.1 member with rfl | above
      · simp [here]
      · split at above
        · rename_i superclass isSuperclass
          have inherits :
              (first.parents.any fun parent => isSubtypeIn older parent d.name) = true :=
            List.any_eq_true.2 ⟨superclass, superclass_mem_parents isSuperclass, ih above⟩
          simp [here, inherits]
        · cases above
    · rename_i elsewhere
      simp [elsewhere, ih member]

theorem chainIn_subset {defs : List ClassDef} (distinct : (defs.map ClassDef.name).Nodup)
    (member : d ∈ chainIn defs cls) : ∀ e ∈ chainIn defs d.name, e ∈ chainIn defs cls := by
  induction defs generalizing cls with
  | nil => cases member
  | cons first older ih =>
    obtain ⟨fresh, later⟩ := List.nodup_cons.1 distinct
    -- a class that is met behind the first definition has another name
    have behind {name : String} (inOlder : d ∈ chainIn older name) : first.name ≠ d.name :=
      fun same => fresh (same ▸ List.mem_map_of_mem ((chainIn_sublist older name).subset inOlder))
    intro e above
    by_cases here : first.name = cls
    · rw [chainIn, if_pos here] at member ⊢
      rcases List.mem_cons.1 member with rfl | inOlder
      · rw [chainIn, if_pos rfl] at above
        exact above
      · split at inOlder
        · rw [chainIn, if_neg (behind inOlder)] at above
          exact List.mem_cons_of_mem _ (ih later inOlder e above)
        · cases inOlder
    · rw [chainIn, if_neg here] at member ⊢
      rw [chainIn, if_neg (behind member)] at above
      exact ih later member e above

/-- A class is another one or reaches it through superclasses. -/
def Extends (t : ClassTable) (cls name : String) : Prop :=
  ∃ d ∈ t.superclassChain cls, d.name = name

theorem Extends.isSubtype (below : t.Extends cls name) : t.isSubtype cls name = true := by
  obtain ⟨d, member, rfl⟩ := below
  exact isSubtypeIn_of_mem_chainIn member

theorem Extends.superclassChain_subset (reached : t.Reachable) (below : t.Extends cls name) :
    ∀ d ∈ t.superclassChain name, d ∈ t.superclassChain cls := by
  obtain ⟨d, member, rfl⟩ := below
  exact chainIn_subset (nodup_names reached) member

/-! ### Fields -/

/-- No class declares a field twice or declares a field of its superclasses again. -/
def DistinctFields (t : ClassTable) : Prop :=
  ∀ cls, ((t.superclassChain cls).flatMap fun d => d.fields.map FieldDef.name).Nodup

/-- It is enough that no two fields of the table have the same name. -/
theorem distinctFields_of_nodup
    (distinct : (t.defs.flatMap fun d => d.fields.map FieldDef.name).Nodup) : t.DistinctFields :=
  fun cls => distinct.sublist ((chainIn_sublist t.defs cls).flatMap _)

/-- A new object has the fields of its class and of all superclasses as they are declared. -/
theorem DistinctFields.get?_layout (distinct : t.DistinctFields)
    (member : d ∈ t.superclassChain cls) {f : FieldDef} (declared : f ∈ d.fields) :
    (t.layout cls).get? f.name = some f.initial := by
  refine OrderedMap.get?_ofList_of_mem ?_ ?_
  · have same : ((t.superclassChain cls).reverse.flatMap fun d =>
        d.fields.map fun f => (f.name, f.initial)).map Prod.fst =
        (t.superclassChain cls).reverse.flatMap fun d => d.fields.map FieldDef.name := by
      rw [List.map_flatMap]
      exact List.flatMap_congr fun e _ => List.map_map
    rw [same]
    exact ((List.reverse_perm _).flatMap_right _).nodup_iff.2 (distinct cls)
  · exact List.mem_flatMap.2 ⟨d, List.mem_reverse.2 member, List.mem_map.2 ⟨f, declared, rfl⟩⟩

end ClassTable

end BeanDispatch
