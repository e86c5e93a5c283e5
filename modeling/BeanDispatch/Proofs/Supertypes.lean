import BeanDispatch.Proofs.Subtyping
import Mathlib.Data.List.Perm.Subperm

/-! The classes and interfaces that a method search goes through. The search lists a class and its
superclasses, then goes through the list and adds the interfaces of each class it meets that are not
listed yet. No class is listed twice, so the number of all classes is enough for the search to meet
every class that it lists: what it lists in the end is exactly what interfaces lead to from the
class and its superclasses (`mem_supertypes_iff`), each once (`listing_supertypes`). -/

namespace BeanDispatch.ClassTable

variable {t : ClassTable} {d e : ClassDef} {cls name : String} {names : List String}
  {listed : List ClassDef}

/-- The first definition names the second one among its interfaces. -/
def Offers (t : ClassTable) (d e : ClassDef) : Prop := ∃ name ∈ d.interfaces, t.get? name = some e

theorem Layered.interfaces_known (layered : Layered t.defs) (found : t.get? d.name = some d) :
    ∀ name ∈ d.interfaces, name ∈ t.defs.map ClassDef.name := by
  intro name offered
  have parent : t.Parent d.name name := ⟨d, found, List.mem_append_right _ offered⟩
  exact layered.known_of_parent parent

/-! ### Listings -/

/-- Known classes, none twice. -/
structure Listing (t : ClassTable) (listed : List ClassDef) : Prop where
  distinct : (listed.map ClassDef.name).Nodup
  known : ∀ d ∈ listed, t.get? d.name = some d

namespace Listing

theorem length_le (listing : t.Listing listed) : listed.length ≤ t.defs.length := by
  have isKnown : listed ⊆ t.defs := fun d member => (mem_of_get? (listing.known d member)).1
  exact ((listing.distinct.of_map _).subperm isKnown).length_le

theorem mem_iff_any (listing : t.Listing listed) (found : t.get? name = some d) :
    d ∈ listed ↔ (listed.any fun e => e.name = d.name) = true := by
  rw [List.any_eq_true]
  constructor
  · intro member
    exact ⟨d, member, decide_eq_true rfl⟩
  · rintro ⟨e, member, sameName⟩
    have isKnown := listing.known e member
    rw [of_decide_eq_true sameName, (mem_of_get? found).2, found] at isKnown
    cases isKnown
    exact member

end Listing

/-- One name adds the class that it stands for unless that is listed already. -/
theorem Listing.addUnlisted_one (listing : t.Listing listed) (name : String) :
    (t.addUnlisted listed [name] = listed ∧ ∀ d, t.get? name = some d → d ∈ listed) ∨
      ∃ d, t.get? name = some d ∧ d ∉ listed ∧ t.addUnlisted listed [name] = listed ++ [d] := by
  rw [addUnlisted, List.foldl_cons, List.foldl_nil]
  cases found : t.get? name with
  | none => exact .inl ⟨rfl, fun d absurdly => by cases absurdly⟩
  | some d =>
    have isListed := listing.mem_iff_any found
    by_cases member : d ∈ listed
    · have known : ∀ e, some d = some e → e ∈ listed := fun e same => Option.some.inj same ▸ member
      exact .inl ⟨if_pos (isListed.1 member), known⟩
    · exact .inr ⟨d, rfl, member, if_neg fun any => member (isListed.2 any)⟩

theorem addUnlisted_cons (t : ClassTable) (listed : List ClassDef) (name : String)
    (names : List String) :
    t.addUnlisted listed (name :: names) = t.addUnlisted (t.addUnlisted listed [name]) names :=
  rfl

namespace Listing

theorem addUnlisted (listing : t.Listing listed) (names : List String) :
    t.Listing (t.addUnlisted listed names) := by
  induction names generalizing listed with
  | nil => exact listing
  | cons name names ih =>
    rw [addUnlisted_cons]
    apply ih
    rcases listing.addUnlisted_one name with ⟨same, _⟩ | ⟨d, found, unlisted, more⟩
    · rw [same]
      exact listing
    · rw [more]
      have named := (mem_of_get? found).2
      refine ⟨?_, ?_⟩
      · rw [List.map_append, List.nodup_append]
        refine ⟨listing.distinct, List.nodup_singleton _, fun a old b new => ?_⟩
        obtain ⟨e, member, rfl⟩ := List.mem_map.1 old
        obtain rfl := List.mem_singleton.1 new
        intro sameName
        exact unlisted ((listing.mem_iff_any found).2
          (List.any_eq_true.2 ⟨e, member, decide_eq_true sameName⟩))
      · intro e member
        rcases List.mem_append.1 member with old | new
        · exact listing.known e old
        · obtain rfl := List.mem_singleton.1 new
          rw [named, found]

/-- What is listed keeps its place. -/
theorem prefix_addUnlisted (listing : t.Listing listed) (names : List String) :
    listed <+: t.addUnlisted listed names := by
  induction names generalizing listed with
  | nil => exact List.prefix_rfl
  | cons name names ih =>
    rw [addUnlisted_cons]
    have later := ih (listing.addUnlisted [name])
    rcases listing.addUnlisted_one name with ⟨same, _⟩ | ⟨d, _, _, more⟩
    · rwa [same] at later ⊢
    · rw [more] at later ⊢
      exact (List.prefix_append listed [d]).trans later

/-- The classes up to one that is listed stay in front. -/
theorem take_addUnlisted (listing : t.Listing listed) {next : Nat} (here : listed[next]? = some d)
    (names : List String) :
    (t.addUnlisted listed names).take (next + 1) = listed.take next ++ [d] := by
  obtain ⟨inside, _⟩ := List.getElem?_eq_some_iff.1 here
  obtain ⟨more, grown⟩ := listing.prefix_addUnlisted names
  rw [← grown, List.take_append_of_le_length (by omega), List.take_add_one, here]
  rfl

theorem mem_addUnlisted_iff (listing : t.Listing listed) :
    e ∈ t.addUnlisted listed names ↔ e ∈ listed ∨ ∃ name ∈ names, t.get? name = some e := by
  induction names generalizing listed with
  | nil => simp [ClassTable.addUnlisted]
  | cons name names ih =>
    rw [addUnlisted_cons, ih (listing.addUnlisted [name])]
    rcases listing.addUnlisted_one name with ⟨same, known⟩ | ⟨d, found, _, more⟩
    · have isListed : t.get? name = some e → e ∈ listed := known e
      simp only [same, List.mem_cons, exists_eq_or_imp]
      tauto
    · have same : e = d ↔ t.get? name = some e := by rw [found, Option.some.injEq, eq_comm]
      simp only [more, List.mem_append, List.mem_cons, List.not_mem_nil, or_false,
        exists_eq_or_imp, same, or_assoc]

end Listing

/-! ### The search -/

/-- Classes have been added to a list until every interface of a listed class was listed, and
nothing but what interfaces lead to. -/
structure Completes (t : ClassTable) (listed all : List ClassDef) : Prop where
  listing : t.Listing all
  kept : listed ⊆ all
  closed : ∀ d ∈ all, ∀ e, t.Offers d e → e ∈ all
  reached : ∀ e ∈ all, ∃ d ∈ listed, Relation.ReflTransGen t.Offers d e

theorem Listing.completes_self (listing : t.Listing listed) {next : Nat}
    (atEnd : listed.length ≤ next)
    (done : ∀ d ∈ listed.take next, ∀ e, t.Offers d e → e ∈ listed) :
    t.Completes listed listed := by
  rw [List.take_of_length_le atEnd] at done
  exact ⟨listing, List.Subset.refl _, done, fun e member => ⟨e, member, .refl⟩⟩

/-- The search has gone through the classes before position `next`. The fuel is enough for all
positions, since a list without repetition has no more of them than there are classes. -/
theorem Listing.addInterfaces_completes (listing : t.Listing listed) {fuel next : Nat}
    (enough : t.defs.length ≤ fuel + next)
    (done : ∀ d ∈ listed.take next, ∀ e, t.Offers d e → e ∈ listed) :
    t.Completes listed (t.addInterfaces fuel next listed) := by
  induction fuel generalizing next listed with
  | zero =>
    have short := listing.length_le
    exact listing.completes_self (by omega) done
  | succ fuel ih =>
    rw [addInterfaces]
    cases here : listed[next]? with
    | none => exact listing.completes_self (List.getElem?_eq_none_iff.1 here) done
    | some d =>
      obtain ⟨inside, isHere⟩ := List.getElem?_eq_some_iff.1 here
      have member : d ∈ listed := isHere ▸ List.getElem_mem inside
      have grown := listing.prefix_addUnlisted d.interfaces
      have isMore : ∀ e, e ∈ t.addUnlisted listed d.interfaces ↔ e ∈ listed ∨ t.Offers d e :=
        fun e => listing.mem_addUnlisted_iff
      have further : ∀ c ∈ (t.addUnlisted listed d.interfaces).take (next + 1), ∀ e,
          t.Offers c e → e ∈ t.addUnlisted listed d.interfaces := by
        intro c before e offers
        rw [isMore]
        rw [listing.take_addUnlisted here] at before
        rcases List.mem_append.1 before with old | last
        · exact .inl (done c old e offers)
        · obtain rfl := List.mem_singleton.1 last
          exact .inr offers
      have completes := ih (listing.addUnlisted d.interfaces) (by omega) further
      have kept : listed ⊆ _ := List.Subset.trans grown.subset completes.kept
      refine ⟨completes.listing, kept, completes.closed, ?_⟩
      intro e isListed
      obtain ⟨c, isListedMore, leads⟩ := completes.reached e isListed
      rcases (isMore c).1 isListedMore with old | offers
      · exact ⟨c, old, leads⟩
      · exact ⟨d, member, .head offers leads⟩

theorem listing_superclassChain (reached : t.Reachable) (cls : String) :
    t.Listing (t.superclassChain cls) := by
  have within := chainIn_sublist t.defs cls
  exact ⟨(nodup_names reached).sublist (within.map _),
    fun d member => get?_name reached (within.subset member)⟩

theorem supertypes_completes (reached : t.Reachable) (cls : String) :
    t.Completes (t.superclassChain cls) (t.supertypes cls) := by
  refine (listing_superclassChain reached cls).addInterfaces_completes (Nat.le_refl _) ?_
  intro d member
  rw [List.take_zero] at member
  cases member

theorem listing_supertypes (reached : t.Reachable) (cls : String) : t.Listing (t.supertypes cls) :=
  (supertypes_completes reached cls).listing

/-- The supertypes of a class are what interfaces lead to from the class and its superclasses. -/
theorem mem_supertypes_iff (reached : t.Reachable) :
    e ∈ t.supertypes cls ↔ ∃ d ∈ t.superclassChain cls, Relation.ReflTransGen t.Offers d e := by
  have completes := supertypes_completes reached cls
  constructor
  · exact completes.reached e
  · rintro ⟨d, inChain, leads⟩
    induction leads with
    | refl => exact completes.kept inChain
    | tail _ offers ih => exact completes.closed _ ih _ offers

theorem mem_supertypes_of_leads (reached : t.Reachable) (listed : d ∈ t.supertypes cls)
    (leads : Relation.ReflTransGen t.Offers d e) : e ∈ t.supertypes cls := by
  obtain ⟨first, inChain, before⟩ := (mem_supertypes_iff reached).1 listed
  exact (mem_supertypes_iff reached).2 ⟨first, inChain, before.trans leads⟩

end BeanDispatch.ClassTable
