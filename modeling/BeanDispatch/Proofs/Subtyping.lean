import BeanDispatch.Proofs.Hierarchy
import Mathlib.Logic.Relation

/-! Subtyping as a relation between names. A definition may only name classes that are already
known, so along superclasses and interfaces one always comes to older definitions and never back.
`Layered` is what every definition preserves; from it the look-up of a class in the whole table and
the recursion on the definitions behind it come to the same, the climb from any name ends, and a
class is a subtype of itself, of the root class, and of what it reaches. Subtyping is a partial
order on all names, the undefined ones included. -/

namespace BeanDispatch

namespace ClassTable

variable {t next : ClassTable} {d e : ClassDef} {defs older : List ClassDef}
  {name sub sup cls : String}

/-! ### Attempts -/

/-- The table after a definition is attempted: with the class, or as it was if it is refused. -/
def attempt (t : ClassTable) (d : ClassDef) : ClassTable :=
  match t.define d with
  | .ok next => next
  | .error _ => t

/-- The table after some definitions are attempted one after the other. -/
def attemptAll (t : ClassTable) (ds : List ClassDef) : ClassTable := ds.foldl attempt t

theorem Reachable.attempt (reached : t.Reachable) (d : ClassDef) : (t.attempt d).Reachable := by
  rw [ClassTable.attempt]
  cases defined : t.define d with
  | ok next => exact reached.define defined
  | error fault => exact reached

theorem Reachable.attemptAll (reached : t.Reachable) (ds : List ClassDef) :
    (t.attemptAll ds).Reachable := by
  induction ds generalizing t with
  | nil => exact reached
  | cons d ds ih => exact ih (reached.attempt d)

/-! ### Layers -/

/-- Every definition has a name of its own and names only older ones. -/
inductive Layered : List ClassDef → Prop
  | nil : Layered []
  | cons {d : ClassDef} {older : List ClassDef} (fresh : d.name ∉ older.map ClassDef.name)
    (known : ∀ parent ∈ d.parents, parent ∈ older.map ClassDef.name) (behind : Layered older) :
    Layered (d :: older)

theorem layered_builtin : Layered builtin.defs := by
  unfold builtin
  repeat' constructor
  all_goals decide

theorem contains_iff : t.contains name = true ↔ name ∈ t.defs.map ClassDef.name := by
  rw [← Bool.not_eq_false, contains_eq_false_iff, not_not]

theorem exists_get? (known : name ∈ t.defs.map ClassDef.name) : ∃ d, t.get? name = some d :=
  Option.isSome_iff_exists.1 (contains_iff.2 known)

theorem parents_known (defined : t.define d = .ok next) :
    ∀ parent ∈ d.parents, parent ∈ t.defs.map ClassDef.name := by
  have fresh := (define_ok defined).1
  rw [define, fresh] at defined
  obtain ⟨_, checked, _⟩ := Checked.bind_eq_ok.1 defined
  intro parent listed
  have known := Checked.forM_eq_ok checked parent listed
  rw [require] at known
  cases found : t.get? parent with
  | none =>
    rw [found] at known
    cases known
  | some e => exact contains_iff.1 (Option.isSome_iff_exists.2 ⟨e, found⟩)

theorem isClass_of_define (defined : t.define d = .ok next) (extended : d.superclass = some name)
    (found : t.get? name = some e) : e.isInterface = false := by
  have fresh := (define_ok defined).1
  rw [define, fresh] at defined
  obtain ⟨_, _, rest⟩ := Checked.bind_eq_ok.1 defined
  rw [extended] at rest
  obtain ⟨above, required, rest⟩ := Checked.bind_eq_ok.1 rest
  rw [require, found] at required
  cases required
  cases isInterface : e.isInterface with
  | false => rfl
  | true =>
    rw [isInterface] at rest
    cases rest

theorem layered (reached : t.Reachable) : Layered t.defs := by
  induction reached with
  | builtin => exact layered_builtin
  | define _ defined ih =>
    have known := parents_known defined
    obtain ⟨fresh, rfl⟩ := define_ok defined
    exact .cons (contains_eq_false_iff.1 fresh) known ih

/-! ### Parents -/

/-- The definition of a class names another one as its superclass or as an interface. -/
def Parent (t : ClassTable) (sub sup : String) : Prop := ∃ d, t.get? sub = some d ∧ sup ∈ d.parents

theorem get?_cons_of_eq (named : d.name = name) : get? ⟨d :: older⟩ name = some d :=
  List.find?_cons_of_pos (decide_eq_true named)

theorem get?_cons_of_ne (other : d.name ≠ name) : get? ⟨d :: older⟩ name = get? ⟨older⟩ name :=
  List.find?_cons_of_neg (fun named => other (of_decide_eq_true named))

theorem mem_of_get? (found : t.get? name = some d) : d ∈ t.defs ∧ d.name = name :=
  ⟨List.mem_of_find?_eq_some found, by simpa using List.find?_some found⟩

theorem get?_name (reached : t.Reachable) (member : d ∈ t.defs) : t.get? d.name = some d := by
  obtain ⟨found, isFound⟩ := exists_get? (List.mem_map_of_mem member)
  obtain ⟨foundMember, sameName⟩ := mem_of_get? isFound
  have same := List.inj_on_of_nodup_map (nodup_names reached) foundMember member sameName
  rw [isFound, same]

theorem parent_cons_of_eq (named : d.name = sub) :
    Parent ⟨d :: older⟩ sub sup ↔ sup ∈ d.parents := by
  simp [Parent, get?_cons_of_eq named]

theorem parent_cons_of_ne (other : d.name ≠ sub) :
    Parent ⟨d :: older⟩ sub sup ↔ Parent ⟨older⟩ sub sup := by
  rw [Parent, Parent, get?_cons_of_ne other]

/-- A newer definition does not matter to a name that is not its own. -/
theorem isSubtypeIn_cons_of_ne (other : d.name ≠ sub) :
    isSubtypeIn (d :: older) sub sup = isSubtypeIn older sub sup := by
  rw [isSubtypeIn, if_neg other]
  cases older with
  | nil => simp [isSubtypeIn]
  | cons e older =>
    rw [isSubtypeIn]
    cases decide (sub = sup) <;> cases decide (sup = Builtin.object) <;> rfl

theorem chainIn_cons_of_ne (other : d.name ≠ cls) : chainIn (d :: older) cls = chainIn older cls :=
  if_neg other

namespace Layered

theorem ne_of_known (fresh : d.name ∉ older.map ClassDef.name)
    (known : name ∈ older.map ClassDef.name) : d.name ≠ name :=
  fun same => fresh (same ▸ known)

theorem known_of_parent (layered : Layered defs) (parent : Parent ⟨defs⟩ sub sup) :
    sup ∈ defs.map ClassDef.name := by
  induction layered with
  | nil =>
    obtain ⟨d, found, _⟩ := parent
    cases found
  | @cons d older fresh known behind ih =>
    by_cases named : d.name = sub
    · rw [parent_cons_of_eq named] at parent
      exact List.mem_cons_of_mem _ (known sup parent)
    · rw [parent_cons_of_ne named] at parent
      exact List.mem_cons_of_mem _ (ih parent)

/-- Whatever a definition names was defined before it, and is still found by its name. -/
theorem get?_of_suffix (layered : Layered defs) (suffix : d :: older <:+ defs) :
    ∀ parent ∈ d.parents, ∃ e ∈ older, get? ⟨defs⟩ parent = some e := by
  induction layered with
  | nil => exact absurd (List.suffix_nil.1 suffix) (List.cons_ne_nil _ _)
  | @cons newest behind fresh known _ ih =>
    intro parent listed
    rcases List.suffix_cons_iff.1 suffix with same | further
    · cases same
      obtain ⟨e, found⟩ := exists_get? (t := ⟨older⟩) (known parent listed)
      refine ⟨e, (mem_of_get? found).1, ?_⟩
      rw [get?_cons_of_ne (ne_of_known fresh (known parent listed))]
      exact found
    · obtain ⟨e, before, found⟩ := ih further parent listed
      have isKnown : parent ∈ behind.map ClassDef.name := by
        rw [← (mem_of_get? found).2]
        exact List.mem_map_of_mem (mem_of_get? found).1
      refine ⟨e, before, ?_⟩
      rw [get?_cons_of_ne (ne_of_known fresh isKnown)]
      exact found

/-- Subtyping by look-up: a class is a subtype of itself, of the root class, and of whatever one of
its parents is a subtype of. -/
theorem isSubtypeIn_iff (layered : Layered defs) :
    isSubtypeIn defs sub sup = true ↔ sub = sup ∨ sup = Builtin.object ∨
      ∃ parent, Parent ⟨defs⟩ sub parent ∧ isSubtypeIn defs parent sup = true := by
  induction layered with
  | nil => simp [isSubtypeIn, Parent, get?]
  | @cons d older fresh known behind ih =>
    -- known classes are looked for behind the newest definition
    have skip {name : String} (isKnown : name ∈ older.map ClassDef.name) :
        isSubtypeIn (d :: older) name sup = isSubtypeIn older name sup :=
      isSubtypeIn_cons_of_ne (ne_of_known fresh isKnown)
    by_cases named : d.name = sub
    · have above : (d.parents.any fun parent => isSubtypeIn older parent sup) = true ↔
          ∃ parent, Parent ⟨d :: older⟩ sub parent ∧
            isSubtypeIn (d :: older) parent sup = true := by
        simp only [List.any_eq_true, parent_cons_of_eq named]
        refine exists_congr fun parent => and_congr_right fun listed => ?_
        rw [skip (known parent listed)]
      rw [isSubtypeIn, if_pos named, ← above]
      simp [or_assoc]
    · rw [isSubtypeIn_cons_of_ne named, ih]
      simp only [parent_cons_of_ne named]
      refine or_congr_right (or_congr_right (exists_congr fun parent => ?_))
      refine and_congr_right fun isParent => ?_
      rw [skip (behind.known_of_parent isParent)]

/-- The superclasses by look-up: the class itself, then the superclasses of its superclass. -/
theorem chainIn_eq (layered : Layered defs) (cls : String) :
    chainIn defs cls = (get? ⟨defs⟩ cls).elim [] fun d =>
      d :: d.superclass.elim [] fun superclass => chainIn defs superclass := by
  induction layered with
  | nil => rfl
  | @cons d older fresh known behind ih =>
    have skip {name : String} (isKnown : name ∈ older.map ClassDef.name) :
        chainIn (d :: older) name = chainIn older name :=
      chainIn_cons_of_ne (ne_of_known fresh isKnown)
    by_cases named : d.name = cls
    · rw [get?_cons_of_eq named, chainIn, if_pos named, Option.elim_some]
      cases extended : d.superclass with
      | none => rfl
      | some superclass =>
        rw [Option.elim_some, skip (known superclass (superclass_mem_parents extended))]
    · rw [get?_cons_of_ne named, chainIn_cons_of_ne named, ih]
      cases found : get? ⟨older⟩ cls with
      | none => rfl
      | some e =>
        rw [Option.elim_some, Option.elim_some]
        cases extended : e.superclass with
        | none => rfl
        | some superclass =>
          have isParent : Parent ⟨older⟩ cls superclass :=
            ⟨e, found, superclass_mem_parents extended⟩
          rw [Option.elim_some, Option.elim_some, skip (behind.known_of_parent isParent)]

end Layered

/-! ### Age -/

/-- How many definitions were known once a class was defined, and none for an undefined name. -/
def rankIn : List ClassDef → String → Nat
  | [], _ => 0
  | d :: older, name => if d.name = name then older.length + 1 else rankIn older name

theorem rankIn_le (defs : List ClassDef) (name : String) : rankIn defs name ≤ defs.length := by
  induction defs with
  | nil => exact Nat.le_refl 0
  | cons d older ih =>
    rw [rankIn, List.length_cons]
    split
    · exact Nat.le_refl _
    · omega

theorem Layered.rankIn_lt (layered : Layered defs) (parent : Parent ⟨defs⟩ sub sup) :
    rankIn defs sup < rankIn defs sub := by
  induction layered with
  | nil =>
    obtain ⟨d, found, _⟩ := parent
    cases found
  | @cons d older fresh known behind ih =>
    by_cases named : d.name = sub
    · rw [parent_cons_of_eq named] at parent
      have other := ne_of_known fresh (known sup parent)
      have below := rankIn_le older sup
      rw [rankIn, rankIn, if_neg other, if_pos named]
      omega
    · rw [parent_cons_of_ne named] at parent
      have other := ne_of_known fresh (behind.known_of_parent parent)
      rw [rankIn, rankIn, if_neg other, if_neg named]
      exact ih parent

theorem Layered.wellFounded_parent (layered : Layered defs) :
    WellFounded fun sup sub => Parent ⟨defs⟩ sub sup :=
  Subrelation.wf (fun parent => layered.rankIn_lt parent) (measure (rankIn defs)).wf

/-- A climb from a class to a parent, to a parent of that one, and so on, is no longer than the
table. -/
theorem Layered.length_climb_le (layered : Layered defs) {first : String} {climb : List String}
    (climbs : (first :: climb).IsChain (Parent ⟨defs⟩)) : climb.length ≤ rankIn defs first := by
  induction climb generalizing first with
  | nil => exact Nat.zero_le _
  | cons second climb ih =>
    rw [List.isChain_cons_cons] at climbs
    obtain ⟨parent, further⟩ := climbs
    have older := layered.rankIn_lt parent
    have rest := ih further
    rw [List.length_cons]
    omega

theorem Layered.rankIn_lt_of_transGen (layered : Layered defs)
    (reaches : Relation.TransGen (Parent ⟨defs⟩) sub sup) : rankIn defs sup < rankIn defs sub := by
  induction reaches with
  | single parent => exact layered.rankIn_lt parent
  | tail _ parent ih => exact Nat.lt_trans (layered.rankIn_lt parent) ih

/-! ### Superclasses -/

theorem superclassChain_eq (reached : t.Reachable) (found : t.get? cls = some d) :
    t.superclassChain cls = d :: d.superclass.elim [] t.superclassChain := by
  rw [superclassChain, (layered reached).chainIn_eq]
  simp only [found, Option.elim_some]
  rfl

theorem superclassChain_eq_nil (reached : t.Reachable) (unknown : t.get? cls = none) :
    t.superclassChain cls = [] := by
  rw [superclassChain, (layered reached).chainIn_eq]
  simp only [unknown, Option.elim_none]

theorem exists_superclass (reached : t.Reachable) (found : t.get? cls = some d)
    (extended : d.superclass = some name) :
    t.Parent cls name ∧ ∃ e, t.get? name = some e := by
  have parent : t.Parent cls name := ⟨d, found, superclass_mem_parents extended⟩
  exact ⟨parent, exists_get? ((layered reached).known_of_parent parent)⟩

/-- The chain of a class starts with the class, goes from superclass to superclass, and ends where
there is none. -/
theorem superclassChain_links (reached : t.Reachable) (found : t.get? cls = some d) :
    ∃ above, t.superclassChain cls = d :: above ∧
      (d :: above).IsChain (fun lower upper => lower.superclass = some upper.name) ∧
      ∀ last ∈ (d :: above).getLast?, last.superclass = none := by
  induction cls using (layered reached).wellFounded_parent.induction generalizing d with
  | _ cls ih =>
    rw [superclassChain_eq reached found]
    cases extended : d.superclass with
    | none => exact ⟨[], rfl, .singleton d, fun last isLast => Option.some.inj isLast ▸ extended⟩
    | some name =>
      obtain ⟨parent, e, isAbove⟩ := exists_superclass reached found extended
      obtain ⟨above, chain, links, ends⟩ := ih name parent isAbove
      have named : e.name = name := (mem_of_get? isAbove).2
      refine ⟨e :: above, ?_, .cons_cons (named ▸ extended) links, ?_⟩
      · rw [Option.elim_some, chain]
      · rw [List.getLast?_cons_cons]
        exact ends

theorem Extends.suffix (reached : t.Reachable) (below : t.Extends cls name) :
    t.superclassChain name <:+ t.superclassChain cls := by
  induction cls using (layered reached).wellFounded_parent.induction with
  | _ cls ih =>
    obtain ⟨e, member, named⟩ := below
    cases found : t.get? cls with
    | none =>
      rw [superclassChain_eq_nil reached found] at member
      cases member
    | some d =>
      rw [superclassChain_eq reached found] at member
      rcases List.mem_cons.1 member with rfl | inAbove
      · obtain rfl : name = cls := named.symm.trans (mem_of_get? found).2
        exact List.suffix_rfl
      · cases extended : d.superclass with
        | none =>
          rw [extended] at inAbove
          cases inAbove
        | some upper =>
          rw [extended] at inAbove
          have parent := (exists_superclass reached found extended).1
          rw [superclassChain_eq reached found, extended]
          exact (ih upper parent ⟨e, inAbove, named⟩).trans (List.suffix_cons _ _)

theorem superclass_isClass (reached : t.Reachable) (member : d ∈ t.defs)
    (extended : d.superclass = some name) (found : t.get? name = some e) :
    e.isInterface = false := by
  induction reached with
  | builtin =>
    have classes : ∀ c ∈ builtin.defs, c.isInterface = false := by decide
    exact classes e (mem_of_get? found).1
  | @define t next newest reached defined ih =>
    have known := parents_known defined
    obtain ⟨fresh, isNext⟩ := define_ok defined
    subst isNext
    have unlike {other : String} (isKnown : other ∈ t.defs.map ClassDef.name) :
        newest.name ≠ other :=
      Layered.ne_of_known (contains_eq_false_iff.1 fresh) isKnown
    rcases List.mem_cons.1 member with rfl | older
    · rw [get?_cons_of_ne (unlike (known name (superclass_mem_parents extended)))] at found
      exact isClass_of_define defined extended found
    · have parent : t.Parent d.name name :=
        ⟨d, get?_name reached older, superclass_mem_parents extended⟩
      rw [get?_cons_of_ne (unlike ((layered reached).known_of_parent parent))] at found
      exact ih older found

theorem isClass_of_mem_superclassChain (reached : t.Reachable) (found : t.get? cls = some d)
    (isClass : d.isInterface = false) : ∀ e ∈ t.superclassChain cls, e.isInterface = false := by
  induction cls using (layered reached).wellFounded_parent.induction generalizing d with
  | _ cls ih =>
    rw [superclassChain_eq reached found]
    refine List.forall_mem_cons.2 ⟨isClass, fun e above => ?_⟩
    cases extended : d.superclass with
    | none =>
      rw [extended] at above
      cases above
    | some name =>
      rw [extended] at above
      obtain ⟨parent, upper, isAbove⟩ := exists_superclass reached found extended
      exact ih name parent isAbove
        (superclass_isClass reached (mem_of_get? found).1 extended isAbove) e above

/-! ### The order -/

/-- No definition can take the name of the root class, which has no parents. -/
theorem get?_object (reached : t.Reachable) :
    t.get? Builtin.object = some (ClassDef.ofClass Builtin.object) := by
  induction reached with
  | builtin => rfl
  | @define t next d _ defined ih =>
    obtain ⟨fresh, rfl⟩ := define_ok defined
    have other : d.name ≠ Builtin.object := by
      intro same
      rw [same, contains, ih] at fresh
      cases fresh
    rw [get?_cons_of_ne other]
    exact ih

theorem not_parent_object (reached : t.Reachable) : ¬t.Parent Builtin.object sup := by
  rintro ⟨d, found, listed⟩
  rw [get?_object reached] at found
  cases found
  cases listed

theorem isSubtype_iff (reached : t.Reachable) :
    t.isSubtype sub sup = true ↔
      sub = sup ∨ sup = Builtin.object ∨ Relation.TransGen t.Parent sub sup := by
  have climb := (layered reached).wellFounded_parent
  induction sub using climb.induction with
  | _ sub ih =>
    rw [isSubtype, (layered reached).isSubtypeIn_iff]
    refine or_congr_right ?_
    constructor
    · rintro (isRoot | ⟨parent, isParent, below⟩)
      · exact .inl isRoot
      · rcases (ih parent isParent).1 below with rfl | isRoot | reaches
        · exact .inr (.single isParent)
        · exact .inl isRoot
        · exact .inr (.head isParent reaches)
    · rintro (isRoot | reaches)
      · exact .inl isRoot
      · obtain ⟨parent, isParent, rest⟩ := Relation.TransGen.head'_iff.1 reaches
        refine .inr ⟨parent, isParent, (ih parent isParent).2 ?_⟩
        rcases Relation.reflTransGen_iff_eq_or_transGen.1 rest with rfl | further
        · exact .inl rfl
        · exact .inr (.inr further)

/-- Only the root class is above the root class. -/
theorem eq_of_isSubtype_object (reached : t.Reachable)
    (below : t.isSubtype Builtin.object sup = true) : sup = Builtin.object := by
  rcases (isSubtype_iff reached).1 below with rfl | isRoot | reaches
  · rfl
  · exact isRoot
  · obtain ⟨parent, isParent, _⟩ := Relation.TransGen.head'_iff.1 reaches
    exact absurd isParent (not_parent_object reached)

theorem isSubtype_trans (reached : t.Reachable) {mid : String}
    (first : t.isSubtype sub mid = true) (second : t.isSubtype mid sup = true) :
    t.isSubtype sub sup = true := by
  rcases (isSubtype_iff reached).1 first with rfl | rfl | reaches
  · exact second
  · rw [eq_of_isSubtype_object reached second]
    exact first
  · rw [isSubtype_iff reached] at second ⊢
    rcases second with rfl | isRoot | further
    · exact .inr (.inr reaches)
    · exact .inr (.inl isRoot)
    · exact .inr (.inr (reaches.trans further))

theorem isSubtype_antisymm (reached : t.Reachable) (below : t.isSubtype sub sup = true)
    (above : t.isSubtype sup sub = true) : sub = sup := by
  rcases (isSubtype_iff reached).1 below with same | rfl | reaches
  · exact same
  · exact eq_of_isSubtype_object reached above
  · rcases (isSubtype_iff reached).1 above with same | rfl | returns
    · exact same.symm
    · exact (eq_of_isSubtype_object reached below).symm
    · have older := (layered reached).rankIn_lt_of_transGen reaches
      have younger := (layered reached).rankIn_lt_of_transGen returns
      omega

/-- Whatever definitions are attempted, refused ones included, a definition names only classes that
were defined before it. So every climb along superclasses and interfaces ends, from any name, and is
no longer than the table; subtyping and the superclasses of a class are what look-ups on the way up
give. A class is a subtype of itself, of the root class and of what it reaches, and of nothing else,
and this is a partial order on all names. -/
theorem attemptAll_isSubtype (ds : List ClassDef) :
    let t := builtin.attemptAll ds
    (∀ d older, d :: older <:+ t.defs →
      ∀ parent ∈ d.parents, ∃ e ∈ older, t.get? parent = some e) ∧
    (WellFounded fun sup sub => t.Parent sub sup) ∧
    (∀ first climb, (first :: climb).IsChain t.Parent → climb.length ≤ t.defs.length) ∧
    (∀ sub sup, t.isSubtype sub sup = true ↔ sub = sup ∨ sup = Builtin.object ∨
      ∃ parent, t.Parent sub parent ∧ t.isSubtype parent sup = true) ∧
    (∀ name, t.superclassChain name = (t.get? name).elim [] fun d =>
      d :: d.superclass.elim [] t.superclassChain) ∧
    (∀ sub sup, t.isSubtype sub sup = true ↔
      sub = sup ∨ sup = Builtin.object ∨ Relation.TransGen t.Parent sub sup) ∧
    (∀ name, t.isSubtype name name = true) ∧
    (∀ a b c, t.isSubtype a b = true → t.isSubtype b c = true → t.isSubtype a c = true) ∧
    ∀ a b, t.isSubtype a b = true → t.isSubtype b a = true → a = b := by
  intro t
  have reached : t.Reachable := Reachable.builtin.attemptAll ds
  have layers := layered reached
  refine ⟨fun d older => layers.get?_of_suffix, layers.wellFounded_parent,
    fun first climb climbs => ?_, fun sub sup => layers.isSubtypeIn_iff, layers.chainIn_eq,
    fun sub sup => isSubtype_iff reached, fun name => ?_,
    fun a b c => isSubtype_trans reached, fun a b => isSubtype_antisymm reached⟩
  · exact Nat.le_trans (layers.length_climb_le climbs) (rankIn_le t.defs first)
  · exact (isSubtype_iff reached).2 (.inl rfl)

end ClassTable

end BeanDispatch
