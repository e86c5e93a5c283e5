import BeanDispatch.ClassTable.Call
import BeanDispatch.Proofs.Supertypes

/-! Class tables that grow. A definition is put in front of the older ones, and these never name it,
so whatever is asked about a class that was known before is answered among the older definitions:
`Conserves` says so for the look-up, for subtyping, for the superclasses and for the supertypes of a
class, and every further query is made of these four. The search for supertypes is given more fuel
in the larger table, which it does not use. A value is known to a table unless it is an object of a
class that the table does not have. -/

namespace BeanDispatch.ClassTable

variable {t later : ClassTable} {d : ClassDef} {older : List ClassDef} {cls name : String}
  {names : List String} {listed : List ClassDef} {value : Value}

/-! ### The search for supertypes -/

/-- A listing that is short enough to have been gone through does not use more fuel. -/
theorem Listing.addInterfaces_succ (listing : t.Listing listed) {fuel next : Nat}
    (enough : t.defs.length ≤ fuel + next) :
    t.addInterfaces (fuel + 1) next listed = t.addInterfaces fuel next listed := by
  induction fuel generalizing next listed with
  | zero =>
    have short := listing.length_le
    rw [addInterfaces, addInterfaces, List.getElem?_eq_none_iff.2 (by omega)]
  | succ fuel ih =>
    rw [addInterfaces, addInterfaces]
    cases listed[next]? with
    | none => rfl
    | some d => exact ih (listing.addUnlisted d.interfaces) (by omega)

theorem addUnlisted_cons_of_known (fresh : d.name ∉ older.map ClassDef.name)
    (known : ∀ name ∈ names, name ∈ older.map ClassDef.name) (listed : List ClassDef) :
    addUnlisted ⟨d :: older⟩ listed names = addUnlisted ⟨older⟩ listed names := by
  induction names generalizing listed with
  | nil => rfl
  | cons name names ih =>
    obtain ⟨first, rest⟩ := List.forall_mem_cons.1 known
    have same : addUnlisted ⟨d :: older⟩ listed [name] = addUnlisted ⟨older⟩ listed [name] := by
      simp only [addUnlisted, List.foldl_cons, List.foldl_nil,
        get?_cons_of_ne (Layered.ne_of_known fresh first)]
    rw [addUnlisted_cons _ _ name names, same, ih rest]
    rfl

/-- A search that starts among the older definitions stays there. -/
theorem Listing.addInterfaces_cons (layered : Layered older)
    (fresh : d.name ∉ older.map ClassDef.name) (listing : Listing ⟨older⟩ listed)
    (fuel next : Nat) :
    addInterfaces ⟨d :: older⟩ fuel next listed = addInterfaces ⟨older⟩ fuel next listed := by
  induction fuel generalizing next listed with
  | zero => rfl
  | succ fuel ih =>
    rw [addInterfaces, addInterfaces]
    cases here : listed[next]? with
    | none => rfl
    | some e =>
      have found := listing.known e (List.mem_of_getElem? here)
      dsimp only
      rw [addUnlisted_cons_of_known fresh (layered.interfaces_known found)]
      exact ih (listing.addUnlisted e.interfaces) (next + 1)

/-! ### Growth -/

/-- The later table has every class of the earlier one as it was, below and above the same ones. -/
structure Conserves (t later : ClassTable) : Prop where
  get? {cls : String} (known : t.contains cls = true) : later.get? cls = t.get? cls
  isSubtype {cls : String} (known : t.contains cls = true) (sup : String) :
    later.isSubtype cls sup = t.isSubtype cls sup
  superclassChain {cls : String} (known : t.contains cls = true) :
    later.superclassChain cls = t.superclassChain cls
  supertypes {cls : String} (known : t.contains cls = true) :
    later.supertypes cls = t.supertypes cls

namespace Conserves

theorem refl (t : ClassTable) : t.Conserves t :=
  ⟨fun _ => rfl, fun _ _ => rfl, fun _ => rfl, fun _ => rfl⟩

theorem contains (conserves : t.Conserves later) (known : t.contains cls = true) :
    later.contains cls = true := by
  rw [ClassTable.contains, conserves.get? known]
  exact known

theorem trans {mid : ClassTable} (first : t.Conserves mid) (second : mid.Conserves later) :
    t.Conserves later where
  get? known := (second.get? (first.contains known)).trans (first.get? known)
  isSubtype known sup :=
    (second.isSubtype (first.contains known) sup).trans (first.isSubtype known sup)
  superclassChain known :=
    (second.superclassChain (first.contains known)).trans (first.superclassChain known)
  supertypes known := (second.supertypes (first.contains known)).trans (first.supertypes known)

theorem define (reached : t.Reachable) (defined : t.define d = .ok later) : t.Conserves later := by
  obtain ⟨unknown, rfl⟩ := define_ok defined
  have fresh : d.name ∉ t.defs.map ClassDef.name := contains_eq_false_iff.1 unknown
  have other {cls : String} (known : t.contains cls = true) : d.name ≠ cls :=
    Layered.ne_of_known fresh (contains_iff.1 known)
  refine ⟨fun known => get?_cons_of_ne (other known),
    fun known sup => isSubtypeIn_cons_of_ne (other known),
    fun known => chainIn_cons_of_ne (other known), fun {cls} known => ?_⟩
  have listing := listing_superclassChain reached cls
  have sameChain : (⟨d :: t.defs⟩ : ClassTable).superclassChain cls = t.superclassChain cls :=
    chainIn_cons_of_ne (other known)
  rw [ClassTable.supertypes, sameChain, listing.addInterfaces_cons (layered reached) fresh]
  exact listing.addInterfaces_succ (Nat.le_refl _)

theorem attempt (reached : t.Reachable) (d : ClassDef) : t.Conserves (t.attempt d) := by
  rw [ClassTable.attempt]
  cases defined : t.define d with
  | ok next => exact define reached defined
  | error fault => exact refl t

/-- What any number of definitions preserve. -/
theorem attemptAll (reached : t.Reachable) (ds : List ClassDef) :
    t.Conserves (t.attemptAll ds) := by
  induction ds generalizing t with
  | nil => exact refl t
  | cons d ds ih => exact (attempt reached d).trans (ih (reached.attempt d))

end Conserves

/-! ### Queries -/

/-- A value that is not an object of a class unknown to the table. -/
def Knows (t : ClassTable) (value : Value) : Prop :=
  ∀ ref, value = .object ref → t.contains ref.cls = true

theorem knows_object {ref : Ref} : t.Knows (.object ref) ↔ t.contains ref.cls = true :=
  ⟨fun knows => knows ref rfl, fun known other same => by cases same; exact known⟩

/-- The built-in classes are in every table as they are. -/
theorem Conserves.of_reachable (reached : t.Reachable) : builtin.Conserves t := by
  induction reached with
  | builtin => exact refl builtin
  | define reached defined ih => exact ih.trans (define reached defined)

theorem contains_of_builtin (reached : t.Reachable) (known : builtin.contains cls = true) :
    t.contains cls = true :=
  (Conserves.of_reachable reached).contains known

/-- Values of the language itself are of built-in classes. -/
theorem Knows.contains_className (reached : t.Reachable) (knows : t.Knows value)
    (notNull : value.isNull = false) : t.contains value.className = true := by
  cases value with
  | null => cases notNull
  | object ref => exact knows_object.1 knows
  | _ => exact contains_of_builtin reached rfl

namespace Conserves

variable (conserves : t.Conserves later)
include conserves

theorem require (known : t.contains cls = true) : later.require cls = t.require cls := by
  rw [ClassTable.require, conserves.get? known, ClassTable.require]

theorem isInstance (reached : t.Reachable) (knows : t.Knows value) (type : TypeName) :
    later.isInstance value type = t.isInstance value type := by
  cases type with
  | named name =>
    rw [ClassTable.isInstance, ClassTable.isInstance]
    cases notNull : value.isNull with
    | true => rfl
    | false => rw [conserves.isSubtype (knows.contains_className reached notNull)]
  | _ => rfl

theorem cast (reached : t.Reachable) (knows : t.Knows value) (type : TypeName) :
    later.cast value type = t.cast value type := by
  cases type with
  | named name => rw [ClassTable.cast, ClassTable.cast, conserves.isInstance reached knows]
  | _ => rfl

theorem layout (known : t.contains cls = true) : later.layout cls = t.layout cls := by
  rw [ClassTable.layout, ClassTable.layout, conserves.superclassChain known]

theorem newInstance (known : t.contains cls = true) :
    later.newInstance cls = t.newInstance cls := by
  rw [ClassTable.newInstance, ClassTable.newInstance, conserves.require known,
    conserves.layout known]

theorem requiredMethod (known : t.contains cls = true) (name : String) (params : ParameterList) :
    later.requiredMethod cls name params = t.requiredMethod cls name params := by
  rw [ClassTable.requiredMethod, ClassTable.requiredMethod, conserves.require known,
    conserves.supertypes known]

theorem body? (known : t.contains cls = true) (name : String) (params : List TypeName) :
    later.body? cls name params = t.body? cls name params := by
  rw [ClassTable.body?, ClassTable.body?, conserves.superclassChain known,
    conserves.supertypes known]

end Conserves

end BeanDispatch.ClassTable
