import BeanDispatch.Proofs.SearchOrder
import BeanDispatch.Proofs.Substitution

/-! The search for a method. It goes through a list that it adds to, one position after the other.
`Visits` is one such step; since no class is listed twice, the steps come to the end of the list, and
what each of them preserves holds of the whole list: the names in it are those of the class and its
superclasses followed by the interface clauses of everything in the list, each name at its first
place. Where definitions name nothing but interfaces as interfaces and interfaces have no superclass,
the list has exactly the supertypes of the class, and the search finds the first declaration of a
method in all of them. -/

namespace BeanDispatch

/-! ### Roots -/

/-- A class that has no superclass is the root class. Definitions start as classes below the root
class or as interfaces, and a superclass is replaced but never taken away. -/
def ClassDef.Rooted (d : ClassDef) : Prop :=
  d.isInterface = false → d.superclass = none → d.name = Builtin.object

namespace ClassDef

theorem rooted_ofClass (name : String) : (ofClass name).Rooted := by
  intro _ none
  by_cases root : name = Builtin.object
  · exact root
  · simp [ofClass, root] at none

theorem rooted_ofInterface (name : String) : (ofInterface name).Rooted := nofun

theorem rooted_extending (d : ClassDef) (superclass : String) :
    (d.extending superclass).Rooted := nofun

end ClassDef

namespace ClassTable

variable {t : ClassTable} {c d e : ClassDef} {cls name : String} {names before : List String}
  {first listed : List ClassDef}

/-- The superclasses of a class go up to the root class. -/
theorem object_mem_superclassChain (reached : t.Reachable) (rooted : ∀ d ∈ t.defs, d.Rooted)
    (known : t.get? cls = some d) (isClass : d.isInterface = false)
    (root : t.get? Builtin.object = some e) : e ∈ t.superclassChain cls := by
  obtain ⟨above, chain, _, ends⟩ := superclassChain_links reached known
  have isLast := List.getLast?_eq_some_getLast (List.cons_ne_nil d above)
  have member : (d :: above).getLast (List.cons_ne_nil d above) ∈ t.superclassChain cls := by
    rw [chain]
    exact List.getLast_mem _
  generalize (d :: above).getLast (List.cons_ne_nil d above) = last at isLast member
  have lastKnown := (listing_superclassChain reached cls).known last member
  have lastIsClass := isClass_of_mem_superclassChain reached known isClass last member
  rw [rooted last (mem_of_get? lastKnown).1 lastIsClass (ends last isLast), root] at lastKnown
  cases lastKnown
  exact member

/-! ### Steps of the search -/

/-- Where a search stands: the position it goes to next, and what is listed so far. -/
structure Search where
  next : Nat
  listed : List ClassDef

/-- The search goes to the next position and adds the interfaces of the class that it finds. -/
inductive Visits (t : ClassTable) : Search → Search → Prop
  | visit {next : Nat} {listed : List ClassDef} {d : ClassDef} (here : listed[next]? = some d) :
    Visits t ⟨next, listed⟩ ⟨next + 1, t.addUnlisted listed d.interfaces⟩

theorem not_visits_end (listed : List ClassDef) (s : Search) :
    ¬t.Visits ⟨listed.length, listed⟩ s := by
  rintro ⟨here⟩
  exact absurd (List.getElem?_eq_some_iff.1 here).1 (Nat.lt_irrefl _)

/-- A search that is given as many steps as there are classes comes to the end of its list. -/
theorem Listing.search_ends (listing : t.Listing listed) {fuel next : Nat}
    (enough : t.defs.length ≤ fuel + next) (inside : next ≤ listed.length) :
    Relation.ReflTransGen t.Visits ⟨next, listed⟩
      ⟨(t.addInterfaces fuel next listed).length, t.addInterfaces fuel next listed⟩ := by
  induction fuel generalizing next listed with
  | zero =>
    have short := listing.length_le
    rw [addInterfaces, show next = listed.length by omega]
  | succ fuel ih =>
    rw [addInterfaces]
    cases here : listed[next]? with
    | none =>
      rw [Nat.le_antisymm inside (List.getElem?_eq_none_iff.1 here)]
    | some d =>
      have visited := (List.getElem?_eq_some_iff.1 here).1
      have longer := (listing.prefix_addUnlisted d.interfaces).length_le
      exact .head (.visit here)
        (ih (listing.addUnlisted d.interfaces) (by omega) (Nat.le_trans visited longer))

theorem supertypes_visited (reached : t.Reachable) (cls : String) :
    Relation.ReflTransGen t.Visits ⟨0, t.superclassChain cls⟩
      ⟨(t.supertypes cls).length, t.supertypes cls⟩ :=
  (listing_superclassChain reached cls).search_ends (Nat.le_refl _) (Nat.zero_le _)

/-! ### The order of the list -/

theorem Listing.mem_names_iff (listing : t.Listing listed) (found : t.get? name = some d) :
    name ∈ listed.map ClassDef.name ↔ d ∈ listed := by
  rw [List.mem_map]
  constructor
  · rintro ⟨e, member, rfl⟩
    have known := listing.known e member
    rw [found] at known
    cases known
    exact member
  · intro member
    exact ⟨d, member, (mem_of_get? found).2⟩

/-- The names of known classes are added behind the others, each at its first place. -/
theorem Listing.names_addUnlisted (listing : t.Listing listed)
    (known : ∀ name ∈ names, name ∈ t.defs.map ClassDef.name)
    (ordered : listed.map ClassDef.name = before.eraseDups) :
    (t.addUnlisted listed names).map ClassDef.name = (before ++ names).eraseDups := by
  induction names generalizing listed before with
  | nil =>
    rw [List.append_nil]
    exact ordered
  | cons name names ih =>
    obtain ⟨isKnown, others⟩ := List.forall_mem_cons.1 known
    obtain ⟨d, found⟩ := exists_get? isKnown
    have isOld : name ∈ before ↔ d ∈ listed := by
      rw [← List.mem_eraseDups, ← ordered]
      exact listing.mem_names_iff found
    have one : (t.addUnlisted listed [name]).map ClassDef.name =
        (before ++ [name]).eraseDups := by
      rw [eraseDups_concat]
      rcases listing.addUnlisted_one name with ⟨same, old⟩ | ⟨e, isFound, unlisted, more⟩
      · rw [same, if_pos (isOld.2 (old d found)), ordered]
      · cases found.symm.trans isFound
        rw [more, if_neg fun old => unlisted (isOld.1 old), List.map_append, ordered,
          List.map_singleton, (mem_of_get? found).2]
    rw [addUnlisted_cons, ih (listing.addUnlisted [name]) others one, List.append_assoc]
    rfl

/-- What has been listed from the first classes on: their names and all interface clauses that the
search has come by, each name at its first place. -/
structure InOrder (t : ClassTable) (first : List ClassDef) (s : Search) : Prop where
  listing : t.Listing s.listed
  names : s.listed.map ClassDef.name =
    (first.map ClassDef.name ++ (s.listed.take s.next).flatMap ClassDef.interfaces).eraseDups

/-- What one step of the search preserves. -/
theorem InOrder.visits (reached : t.Reachable) {s later : Search} (ordered : t.InOrder first s)
    (visits : t.Visits s later) : t.InOrder first later := by
  obtain ⟨listing, names⟩ := ordered
  cases visits with
  | @visit next listed d here =>
    have isKnown := listing.known d (List.mem_of_getElem? here)
    have grown := listing.names_addUnlisted ((layered reached).interfaces_known isKnown) names
    refine ⟨listing.addUnlisted d.interfaces, ?_⟩
    rw [grown, listing.take_addUnlisted here, List.flatMap_append, List.append_assoc,
      List.flatMap_singleton]

/-- The list has the class and its superclasses, and then the interfaces that it names itself, in
the order in which it names them first. -/
theorem names_supertypes (reached : t.Reachable) (cls : String) :
    (t.supertypes cls).map ClassDef.name =
      ((t.superclassChain cls).map ClassDef.name ++
        (t.supertypes cls).flatMap ClassDef.interfaces).eraseDups := by
  have listing := listing_superclassChain reached cls
  have initially : t.InOrder (t.superclassChain cls) ⟨0, t.superclassChain cls⟩ := by
    refine ⟨listing, ?_⟩
    rw [List.take_zero, List.flatMap_nil, List.append_nil]
    exact (eraseDups_of_nodup listing.distinct).symm
  have atEnd : t.InOrder (t.superclassChain cls)
      ⟨(t.supertypes cls).length, t.supertypes cls⟩ := by
    have visited := supertypes_visited reached cls
    generalize (⟨_, t.supertypes cls⟩ : Search) = last at visited ⊢
    induction visited with
    | refl => exact initially
    | tail _ visits ih => exact ih.visits reached visits
  have names := atEnd.names
  rwa [List.take_length] at names

/-! ### The members of the list -/

theorem isSubtype_of_mem_supertypes (reached : t.Reachable) (listed : e ∈ t.supertypes cls) :
    t.isSubtype cls e.name = true := by
  obtain ⟨c, inChain, leads⟩ := (mem_supertypes_iff reached).1 listed
  induction leads with
  | refl => exact isSubtypeIn_of_mem_chainIn inChain
  | @tail mid upper before offers ih =>
    have midListed := (mem_supertypes_iff reached).2 ⟨c, inChain, before⟩
    have known := (listing_supertypes reached cls).known mid midListed
    obtain ⟨name, offered, found⟩ := offers
    have parent : t.Parent mid.name upper.name :=
      ⟨mid, known, (mem_of_get? found).2 ▸ List.mem_append_right _ offered⟩
    have below : t.isSubtype mid.name upper.name = true :=
      (isSubtype_iff reached).2 (.inr (.inr (.single parent)))
    exact isSubtype_trans reached (ih midListed) below

theorem WellKinded.isInterface_of_mem_supertypes (fit : t.WellKinded) (reached : t.Reachable)
    (known : t.get? cls = some d) (isInterface : d.isInterface = true)
    (listed : e ∈ t.supertypes cls) : e.isInterface = true := by
  obtain ⟨c, inChain, leads⟩ := (mem_supertypes_iff reached).1 listed
  have alone : d.superclass = none := (fit d (mem_of_get? known).1).2 isInterface
  rw [superclassChain_eq reached known, alone, Option.elim_none, List.mem_singleton] at inChain
  subst inChain
  cases leads with
  | refl => exact isInterface
  | @tail mid _ before offers =>
    have midListed := (mem_supertypes_iff reached).2
      ⟨c, mem_superclassChain_self reached known, before⟩
    have midKnown := (listing_supertypes reached cls).known mid midListed
    obtain ⟨name, offered, found⟩ := offers
    obtain ⟨upper, isUpper, upperIsInterface⟩ := (fit mid (mem_of_get? midKnown).1).1 name offered
    cases found.symm.trans isUpper
    exact upperIsInterface

/-- The list has every supertype, except that the root class is not in the list of an interface. -/
theorem WellKinded.mem_supertypes_iff_isSubtype (fit : t.WellKinded) (reached : t.Reachable)
    (rooted : ∀ d ∈ t.defs, d.Rooted) (known : t.get? cls = some d)
    (found : t.get? name = some e) :
    e ∈ t.supertypes cls ↔
      t.isSubtype cls name = true ∧ (name = Builtin.object → d.isInterface = false) := by
  have named : e.name = name := (mem_of_get? found).2
  constructor
  · intro listed
    refine ⟨named ▸ isSubtype_of_mem_supertypes reached listed, fun root => ?_⟩
    rw [root, get?_object reached] at found
    cases found
    cases kind : d.isInterface with
    | false => rfl
    | true =>
      have isInterface := fit.isInterface_of_mem_supertypes reached known kind listed
      cases isInterface
  · rintro ⟨below, classOfRoot⟩
    have self := mem_superclassChain_self reached found
    rcases fit.of_isSubtype reached known below with root | chain | ⟨i, listed, _, chain⟩
    · rw [root] at found
      exact superclassChain_subset_supertypes reached cls
        (object_mem_superclassChain reached rooted known (classOfRoot root) found)
    · exact superclassChain_subset_supertypes reached cls (chain self)
    · rw [chain, List.mem_singleton] at self
      rw [self]
      exact listed

/-! ### Methods -/

/-- All declarations of methods, in the order in which the search comes by them. -/
def declarations (t : ClassTable) (cls : String) : List MethodDef :=
  (t.supertypes cls).flatMap ClassDef.methods

/-- The first declaration with this name and these parameter types. -/
def firstDeclared? (t : ClassTable) (cls name : String) (params : List TypeName) :
    Option MethodDef :=
  (t.declarations cls).find? fun m => m.signature.name = name && m.signature.params = params

theorem requiredMethod_eq (known : t.get? cls = some d) (name : String) (params : ParameterList) :
    t.requiredMethod cls name params =
      (t.firstDeclared? cls name params.types).elim
        (.error (.noSuchMethod cls (name ++ "(" ++ typeList params.types ++ ")")))
        fun m => .ok ⟨cls, m.signature, d.isInterface⟩ := by
  have first : t.firstDeclared? cls name params.types =
      (t.supertypes cls).findSome? fun d => d.declared? name params.types := List.find?_flatMap
  rw [first, requiredMethod, require, known]
  cases (t.supertypes cls).findSome? fun d => d.declared? name params.types <;> rfl

theorem requiredMethod_eq_ok_iff (known : t.get? cls = some d) {params : ParameterList}
    {found : LocatedMethod} :
    t.requiredMethod cls name params = .ok found ↔
      ∃ m, t.firstDeclared? cls name params.types = some m ∧
        found = ⟨cls, m.signature, d.isInterface⟩ := by
  rw [requiredMethod_eq known]
  cases t.firstDeclared? cls name params.types with
  | none => simp
  | some m => simp [eq_comm]

/-- A method is declared in a class of the list exactly if it is declared in a supertype. -/
theorem WellKinded.exists_firstDeclared?_iff (fit : t.WellKinded) (reached : t.Reachable)
    (rooted : ∀ d ∈ t.defs, d.Rooted) (known : t.get? cls = some d) {params : List TypeName} :
    (∃ m, t.firstDeclared? cls name params = some m) ↔
      ∃ type e, t.get? type = some e ∧ t.isSubtype cls type = true ∧ ∃ m ∈ e.methods,
        m.signature.name = name ∧ m.signature.params = params := by
  have isDeclared : (∃ m, t.firstDeclared? cls name params = some m) ↔
      ∃ e ∈ t.supertypes cls, ∃ m ∈ e.methods,
        m.signature.name = name ∧ m.signature.params = params := by
    rw [← Option.isSome_iff_exists, firstDeclared?, List.find?_isSome]
    simp only [declarations, List.mem_flatMap, Bool.and_eq_true, decide_eq_true_eq]
    constructor
    · rintro ⟨m, ⟨e, listed, member⟩, same⟩
      exact ⟨e, listed, m, member, same⟩
    · rintro ⟨e, listed, m, member, same⟩
      exact ⟨m, ⟨e, listed, member⟩, same⟩
  rw [isDeclared]
  constructor
  · rintro ⟨e, listed, declared⟩
    exact ⟨e.name, e, (listing_supertypes reached cls).known e listed,
      isSubtype_of_mem_supertypes reached listed, declared⟩
  · rintro ⟨type, e, found, below, declared⟩
    refine ⟨e, ?_, declared⟩
    refine (fit.mem_supertypes_iff_isSubtype reached rooted known found).2 ⟨below, fun root => ?_⟩
    -- the root class declares nothing
    rw [root, get?_object reached] at found
    cases found
    obtain ⟨m, absent, _⟩ := declared
    cases absent

/-- In a table that is well kinded, the search for the methods of a class ends. Its list starts with
the class and its superclasses, nearest first, names no class twice, and has exactly the known
supertypes of the class, the root class only if the class is no interface. After the superclasses,
interfaces stand in the order in which the list itself first names them, and none of them is farther
from the superclasses than one behind it. A method is found if a supertype declares it with this name
and exactly these parameter types, and it is the first such declaration in this order. -/
theorem supertypes_closes (reached : t.Reachable) (fit : t.WellKinded)
    (rooted : ∀ d ∈ t.defs, d.Rooted) (known : t.get? cls = some d) :
    (Relation.ReflTransGen t.Visits ⟨0, t.superclassChain cls⟩
        ⟨(t.supertypes cls).length, t.supertypes cls⟩ ∧
      ∀ s, ¬t.Visits ⟨(t.supertypes cls).length, t.supertypes cls⟩ s) ∧
    (∃ above, t.superclassChain cls = d :: above ∧
      (d :: above).IsChain (fun lower upper => lower.superclass = some upper.name) ∧
      (∀ last ∈ (d :: above).getLast?, last.superclass = none) ∧
      d :: above <+: t.supertypes cls) ∧
    ((t.supertypes cls).map ClassDef.name).Nodup ∧
    (∀ e ∈ t.supertypes cls, t.get? e.name = some e) ∧
    (∀ name e, t.get? name = some e → (e ∈ t.supertypes cls ↔
      t.isSubtype cls name = true ∧ (name = Builtin.object → d.isInterface = false))) ∧
    (t.supertypes cls).map ClassDef.name =
      ((t.superclassChain cls).map ClassDef.name ++
        (t.supertypes cls).flatMap ClassDef.interfaces).eraseDups ∧
    (∀ (position later : Nat) c e, position ≤ later → (t.supertypes cls)[position]? = some c →
      (t.supertypes cls)[later]? = some e → ∀ steps, t.Route cls (fun _ => True) steps e →
        ∃ fewer ≤ steps, t.Route cls (fun _ => True) fewer c) ∧
    ∀ name params,
      ((∃ found, t.requiredMethod cls name params = .ok found) ↔
        ∃ type e, t.get? type = some e ∧ t.isSubtype cls type = true ∧ ∃ m ∈ e.methods,
          m.signature.name = name ∧ m.signature.params = params.types) ∧
      ∀ found, t.requiredMethod cls name params = .ok found ↔
        ∃ m, t.firstDeclared? cls name params.types = some m ∧
          found = ⟨cls, m.signature, d.isInterface⟩ := by
  have listing := listing_supertypes reached cls
  obtain ⟨above, chain, links, ends⟩ := superclassChain_links reached known
  refine ⟨⟨supertypes_visited reached cls, not_visits_end _⟩,
    ⟨above, chain, links, ends, chain ▸ chain_prefix_supertypes reached cls⟩,
    listing.distinct, listing.known,
    fun name e found => fit.mem_supertypes_iff_isSubtype reached rooted known found,
    names_supertypes reached cls, ?_, fun name params => ?_⟩
  · intro position later c e before here there steps route
    obtain ⟨fewer, noMore, shorter⟩ := exists_route_no_longer reached route there before here
    exact ⟨fewer, noMore, shorter.mono fun _ _ => trivial⟩
  · refine ⟨?_, fun found => requiredMethod_eq_ok_iff known⟩
    rw [← fit.exists_firstDeclared?_iff reached rooted known]
    constructor
    · rintro ⟨found, finds⟩
      obtain ⟨m, isFirst, _⟩ := (requiredMethod_eq_ok_iff known).1 finds
      exact ⟨m, isFirst⟩
    · rintro ⟨m, isFirst⟩
      exact ⟨_, (requiredMethod_eq_ok_iff known).2 ⟨m, isFirst, rfl⟩⟩

end ClassTable

namespace Containers

def label : Signature := ⟨"label", [], .named Builtin.string⟩

def named : ClassDef :=
  { ClassDef.ofInterface "Named" with methods := [⟨label, none⟩] }

/-- Something with a tag has a label of any class. -/
def tagged : ClassDef :=
  { ClassDef.ofInterface "Tagged" with
    methods := [⟨{ label with result := .named Builtin.object }, none⟩] }

def sized : ClassDef :=
  { ClassDef.ofInterface "Sized" with interfaces := ["Named", "Tagged"] }

def container : ClassDef := { ClassDef.ofClass "Container" with interfaces := ["Named"] }

/-- A box names both of the interfaces that sized things name, one of them itself and the other one
by its superclass. -/
def box : ClassDef :=
  { (ClassDef.ofClass "Box").extending "Container" with interfaces := ["Sized", "Tagged"] }

def classes : ClassTable :=
  ⟨box :: container :: sized :: tagged :: named :: ClassTable.builtin.defs⟩

theorem reachable_classes : classes.Reachable := by
  have interfaces := ((ClassTable.Reachable.builtin.define (d := named) rfl).define
    (d := tagged) rfl).define (d := sized) rfl
  exact (interfaces.define (d := container) rfl).define (d := box) rfl

theorem wellKinded_classes : classes.WellKinded := by
  simp [ClassTable.WellKinded, ClassTable.KindsFit, classes, ClassTable.builtin, ClassTable.get?,
    box, container, sized, tagged, named, ClassDef.ofClass, ClassDef.ofInterface,
    ClassDef.extending]

theorem rooted_classes : ∀ d ∈ classes.defs, d.Rooted := by
  have builtin : ∀ d ∈ ClassTable.builtin.defs, d.Rooted := by
    simp [ClassTable.builtin, ClassDef.rooted_ofClass, ClassDef.rooted_extending]
  simp only [classes, List.forall_mem_cons]
  exact ⟨(ClassDef.ofClass "Box").rooted_extending "Container", ClassDef.rooted_ofClass "Container",
    ClassDef.rooted_ofInterface "Sized", ClassDef.rooted_ofInterface "Tagged",
    ClassDef.rooted_ofInterface "Named", builtin⟩

/-- A search from a box comes by what has a tag before what has a name, and finds the label of the
former. -/
theorem supertypes_closes_box :
    classes.get? "Box" = some box ∧
      (classes.supertypes "Box").map ClassDef.name =
        ["Box", "Container", "Object", "Sized", "Tagged", "Named"] ∧
      (∀ name e, classes.get? name = some e → (e ∈ classes.supertypes "Box" ↔
        classes.isSubtype "Box" name = true ∧
          (name = Builtin.object → box.isInterface = false))) ∧
      classes.isSubtype "Box" "Named" = true ∧
      classes.requiredMethod "Box" "label" .none =
        .ok ⟨"Box", { label with result := .named Builtin.object }, false⟩ := by
  have known : classes.get? "Box" = some box := rfl
  obtain ⟨_, _, _, _, members, _, _, methods⟩ := ClassTable.supertypes_closes reachable_classes
    wellKinded_classes rooted_classes known
  refine ⟨known, by decide, members, by decide, ((methods "label" .none).2 _).2 ?_⟩
  exact ⟨⟨{ label with result := .named Builtin.object }, none⟩, rfl, rfl⟩

end Containers

end BeanDispatch
