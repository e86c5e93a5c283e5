import BeanDispatch.Proofs.Lists
import BeanDispatch.Proofs.Supertypes
import Mathlib.Order.Nat

/-! The order in which a method search goes through classes and interfaces. Interfaces are listed in
the order in which the search comes by them, so whatever stands earlier in the list was added for
something that stands earlier too: a class is added for the first class of the list that offers it.
It follows that an earlier place is never farther away: if a number of interface clauses leads from
a class or one of its superclasses to an entry of the list, then no more of them lead to any entry
before it, and along the way one meets only entries that stand before that one
(`exists_route_no_longer`). -/

namespace BeanDispatch.ClassTable

variable {t : ClassTable} {d e : ClassDef} {cls : String} {listed : List ClassDef}
  {along wider : ClassDef → Prop} {first next position later steps : Nat}

/-! ### Routes -/

/-- So many interface clauses lead from a class or one of its superclasses to a definition, and
every definition on the way, the two ends included, has a property. -/
inductive Route (t : ClassTable) (cls : String) (along : ClassDef → Prop) : Nat → ClassDef → Prop
  | chain {d : ClassDef} (member : d ∈ t.superclassChain cls) (fits : along d) :
      Route t cls along 0 d
  | step {steps : Nat} {d e : ClassDef} (before : Route t cls along steps d)
      (offers : t.Offers d e) (fits : along e) : Route t cls along (steps + 1) e

namespace Route

theorem mono (route : t.Route cls along steps d) (weaker : ∀ d, along d → wider d) :
    t.Route cls wider steps d := by
  induction route with
  | chain member fits => exact .chain member (weaker _ fits)
  | step _ offers fits ih => exact .step ih offers (weaker _ fits)

theorem mem_supertypes (reached : t.Reachable) (route : t.Route cls along steps d) :
    d ∈ t.supertypes cls := by
  induction route with
  | chain member _ => exact (supertypes_completes reached cls).kept member
  | step _ offers _ ih => exact (supertypes_completes reached cls).closed _ ih _ offers

end Route

theorem exists_route (reached : t.Reachable) (member : d ∈ t.supertypes cls) :
    ∃ steps, t.Route cls (fun _ => True) steps d := by
  obtain ⟨first, inChain, leads⟩ := (mem_supertypes_iff reached).1 member
  induction leads with
  | refl => exact ⟨0, .chain inChain trivial⟩
  | tail before offers ih =>
    obtain ⟨steps, route⟩ := ih ((mem_supertypes_iff reached).2 ⟨first, inChain, before⟩)
    exact ⟨steps + 1, .step route offers trivial⟩

/-! ### The search, step by step -/

theorem Listing.place_unique (listing : t.Listing listed) (here : listed[position]? = some d)
    (there : listed[later]? = some d) : position = later := by
  obtain ⟨inside, _⟩ := List.getElem?_eq_some_iff.1 here
  exact (List.getElem?_inj inside (listing.distinct.of_map _)).1 (here.trans there.symm)

/-- Every class in a list stands before position `first`, or was added for a class that stands
before it and before position `next`. -/
def Discovered (t : ClassTable) (first next : Nat) (listed : List ClassDef) : Prop :=
  ∀ position e, listed[position]? = some e → position < first ∨
    ∃ earlier d, earlier < next ∧ earlier < position ∧ listed[earlier]? = some d ∧ t.Offers d e

/-- What one step of the search preserves. -/
theorem Listing.discovered_addUnlisted (listing : t.Listing listed)
    (discovered : t.Discovered first next listed) (here : listed[next]? = some d) :
    t.Discovered first (next + 1) (t.addUnlisted listed d.interfaces) := by
  obtain ⟨inside, _⟩ := List.getElem?_eq_some_iff.1 here
  obtain ⟨more, grown⟩ := listing.prefix_addUnlisted d.interfaces
  have kept {place : Nat} (old : place < listed.length) :
      (t.addUnlisted listed d.interfaces)[place]? = listed[place]? := by
    rw [← grown, List.getElem?_append_left old]
  intro position e placed
  by_cases old : position < listed.length
  · rw [kept old] at placed
    rcases discovered position e placed with
      isFirst | ⟨earlier, c, visited, before, isThere, offers⟩
    · exact .inl isFirst
    · exact .inr ⟨earlier, c, by omega, before, (kept (by omega)).trans isThere, offers⟩
  · have unlisted : e ∉ listed := by
      intro member
      obtain ⟨place, isThere⟩ := List.mem_iff_getElem?.1 member
      obtain ⟨isOld, _⟩ := List.getElem?_eq_some_iff.1 isThere
      have same := (listing.addUnlisted d.interfaces).place_unique placed
        ((kept isOld).trans isThere)
      omega
    have offers : t.Offers d e :=
      (listing.mem_addUnlisted_iff.1 (List.mem_of_getElem? placed)).resolve_left unlisted
    exact .inr ⟨next, d, by omega, by omega, (kept inside).trans here, offers⟩

theorem Listing.prefix_addInterfaces (listing : t.Listing listed) (fuel next : Nat) :
    listed <+: t.addInterfaces fuel next listed := by
  induction fuel generalizing next listed with
  | zero => exact List.prefix_rfl
  | succ fuel ih =>
    rw [addInterfaces]
    cases listed[next]? with
    | none => exact List.prefix_rfl
    | some d =>
      exact (listing.prefix_addUnlisted d.interfaces).trans
        (ih (listing.addUnlisted d.interfaces) (next + 1))

/-- What a search of `all` has listed when it has gone through the classes up to the position
`visited`, where it found `d`: also all that this class offers, and nothing that was not offered so
far. -/
structure Seen (t : ClassTable) (first visited : Nat) (d : ClassDef)
    (all seen : List ClassDef) : Prop where
  kept : seen <+: all
  offered : ∀ e, t.Offers d e → e ∈ seen
  discovered : t.Discovered first (visited + 1) seen

/-- A search that goes on from position `next` comes by all later positions. -/
theorem Listing.exists_seen (listing : t.Listing listed)
    (discovered : t.Discovered first next listed) {fuel visited : Nat}
    (enough : t.defs.length ≤ fuel + next) (onwards : next ≤ visited)
    (here : (t.addInterfaces fuel next listed)[visited]? = some d) :
    ∃ seen, t.Seen first visited d (t.addInterfaces fuel next listed) seen := by
  induction fuel generalizing next listed with
  | zero =>
    obtain ⟨inside, _⟩ := List.getElem?_eq_some_iff.1 here
    have short := listing.length_le
    rw [addInterfaces] at inside
    omega
  | succ fuel ih =>
    rw [addInterfaces] at here ⊢
    cases now : listed[next]? with
    | none =>
      rw [now] at here
      obtain ⟨inside, _⟩ := List.getElem?_eq_some_iff.1 here
      have atEnd := List.getElem?_eq_none_iff.1 now
      simp only at inside
      omega
    | some c =>
      rw [now] at here
      have grown := listing.addUnlisted c.interfaces
      have further := listing.discovered_addUnlisted discovered now
      rcases Nat.eq_or_lt_of_le onwards with rfl | after
      · have kept := grown.prefix_addInterfaces fuel (next + 1)
        have all := (listing.prefix_addUnlisted c.interfaces).trans kept
        obtain rfl : c = d := Option.some.inj ((getElem?_of_begins all now).symm.trans here)
        exact ⟨t.addUnlisted listed c.interfaces, kept,
          fun e offers => listing.mem_addUnlisted_iff.2 (.inr offers), further⟩
      · exact ih grown further (by omega) after here

theorem exists_seen_supertypes (reached : t.Reachable)
    (here : (t.supertypes cls)[position]? = some d) :
    ∃ seen, t.Seen (t.superclassChain cls).length position d (t.supertypes cls) seen := by
  refine (listing_superclassChain reached cls).exists_seen (fun place e placed => ?_)
    (Nat.le_refl _) (Nat.zero_le position) here
  exact .inl (List.getElem?_eq_some_iff.1 placed).1

/-! ### Distances -/

theorem chain_prefix_supertypes (reached : t.Reachable) (cls : String) :
    t.superclassChain cls <+: t.supertypes cls :=
  (listing_superclassChain reached cls).prefix_addInterfaces t.defs.length 0

theorem lt_length_chain_iff (reached : t.Reachable)
    (here : (t.supertypes cls)[position]? = some d) :
    position < (t.superclassChain cls).length ↔ d ∈ t.superclassChain cls := by
  have begins := chain_prefix_supertypes reached cls
  constructor
  · intro isFirst
    have same := getElem?_of_begins begins (List.getElem?_eq_getElem isFirst)
    rw [← Option.some.inj (same.symm.trans here)]
    exact List.getElem_mem isFirst
  · intro member
    obtain ⟨place, isThere⟩ := List.mem_iff_getElem?.1 member
    rw [(listing_supertypes reached cls).place_unique here (getElem?_of_begins begins isThere)]
    exact (List.getElem?_eq_some_iff.1 isThere).1

/-- The class is in the list and stands no farther back than a position. -/
def UpTo (t : ClassTable) (cls : String) (position : Nat) (d : ClassDef) : Prop :=
  ∃ place ≤ position, (t.supertypes cls)[place]? = some d

theorem upTo_self (here : (t.supertypes cls)[position]? = some d) : t.UpTo cls position d :=
  ⟨position, Nat.le_refl position, here⟩

theorem UpTo.mono (upTo : t.UpTo cls position d) (before : position ≤ later) :
    t.UpTo cls later d := by
  obtain ⟨place, within, isThere⟩ := upTo
  exact ⟨place, within.trans before, isThere⟩

/-- An entry of the list is no farther away than what stands behind it, on a way that goes by
nothing that stands behind it either. -/
theorem exists_route_no_longer (reached : t.Reachable) (route : t.Route cls along steps e)
    (there : (t.supertypes cls)[later]? = some e) (before : position ≤ later)
    (here : (t.supertypes cls)[position]? = some d) :
    ∃ fewer ≤ steps, t.Route cls (t.UpTo cls position) fewer d := by
  induction route generalizing later position d with
  | chain member _ =>
    have isFirst := (lt_length_chain_iff reached there).2 member
    have inChain := (lt_length_chain_iff reached here).1 (by omega)
    exact ⟨0, Nat.le_refl 0, .chain inChain (upTo_self here)⟩
  | @step steps c e isRoute offers _ ih =>
    obtain ⟨mid, isMid⟩ := List.mem_iff_getElem?.1 (isRoute.mem_supertypes reached)
    -- both entries were listed when the search had gone through `c`
    obtain ⟨seen, isSeen⟩ := exists_seen_supertypes reached isMid
    obtain ⟨place, isThere⟩ := List.mem_iff_getElem?.1 (isSeen.offered e offers)
    obtain rfl : later = place := (listing_supertypes reached cls).place_unique there
      (getElem?_of_begins isSeen.kept isThere)
    have inside : position < seen.length :=
      Nat.lt_of_le_of_lt before (List.getElem?_eq_some_iff.1 isThere).1
    have listed : seen[position]? = some d := by
      have same := getElem?_of_begins isSeen.kept (List.getElem?_eq_getElem inside)
      rw [List.getElem?_eq_getElem inside, ← here, same]
    rcases isSeen.discovered position d listed with
      isFirst | ⟨earlier, b, visited, isBefore, isEarlier, adds⟩
    · have inChain := (lt_length_chain_iff reached here).1 isFirst
      exact ⟨0, Nat.zero_le _, .chain inChain (upTo_self here)⟩
    · obtain ⟨fewer, noMore, shorter⟩ :=
        ih isMid (Nat.le_of_lt_succ visited) (getElem?_of_begins isSeen.kept isEarlier)
      exact ⟨fewer + 1, Nat.succ_le_succ noMore,
        .step (shorter.mono fun _ upTo => upTo.mono isBefore.le) adds (upTo_self here)⟩

/-- There is a shortest way to a class in the list that goes by nothing that stands behind it, and
no way to anything behind it is shorter. -/
theorem exists_shortest_route (reached : t.Reachable)
    (here : (t.supertypes cls)[position]? = some d) :
    ∃ fewest, t.Route cls (t.UpTo cls position) fewest d ∧
      ∀ later e, position ≤ later → (t.supertypes cls)[later]? = some e →
        ∀ along steps, t.Route cls along steps e → fewest ≤ steps := by
  classical
  obtain ⟨any, isRoute⟩ := exists_route reached (List.mem_of_getElem? here)
  obtain ⟨within, _, goesWithin⟩ :=
    exists_route_no_longer reached isRoute here (Nat.le_refl position) here
  have some : ∃ fewer, t.Route cls (t.UpTo cls position) fewer d := ⟨within, goesWithin⟩
  refine ⟨Nat.find some, Nat.find_spec some, fun later e before there along steps route => ?_⟩
  obtain ⟨fewer, noMore, shorter⟩ := exists_route_no_longer reached route there before here
  exact (Nat.find_min' some shorter).trans noMore

end BeanDispatch.ClassTable
