import BeanDispatch.Heap

/-! Laws of results and of actions on the heap. A sequence of checks succeeds exactly if each of
them does, and a list of checks gives one result for each element. An action maps a heap to its
outcome and the heap it leaves, so two actions are equal if they agree on every heap. `Yields`
collects the results an action can end with on some heap; `bind_congr_of_yields` lets two
continuations differ on results that never come. -/

namespace BeanDispatch

variable {ε α β : Type}

/-! ### Results -/

namespace Checked

theorem bind_eq_ok {x : Except ε α} {f : α → Except ε β} {b : β} :
    (x >>= f) = .ok b ↔ ∃ a, x = .ok a ∧ f a = .ok b := by
  cases x <;> simp [bind, Except.bind]

theorem forM_eq_ok {f : α → Except ε PUnit} {xs : List α} {u : PUnit}
    (checked : xs.forM f = .ok u) : ∀ x ∈ xs, f x = .ok () := by
  induction xs with
  | nil => exact fun x absent => absurd absent List.not_mem_nil
  | cons head tail ih =>
    rw [List.forM_eq_forM, List.forM_cons, bind_eq_ok] at checked
    obtain ⟨_, first, later⟩ := checked
    exact List.forall_mem_cons.2 ⟨first, ih later⟩

theorem exists_of_mapM {f : α → Except ε β} {xs : List α} {ys : List β}
    (mapped : xs.mapM f = .ok ys) {x : α} (member : x ∈ xs) : ∃ y ∈ ys, f x = .ok y := by
  induction xs generalizing ys with
  | nil => cases member
  | cons head tail ih =>
    rw [List.mapM_cons, bind_eq_ok] at mapped
    obtain ⟨y, first, rest⟩ := mapped
    obtain ⟨tailYs, later, done⟩ := bind_eq_ok.1 rest
    cases done
    rcases List.mem_cons.1 member with rfl | inTail
    · exact ⟨y, List.mem_cons_self, first⟩
    · obtain ⟨z, found, maps⟩ := ih later inTail
      exact ⟨z, List.mem_cons_of_mem y found, maps⟩

theorem exists_of_mem_mapM {f : α → Except ε β} {xs : List α} {ys : List β}
    (mapped : xs.mapM f = .ok ys) {y : β} (member : y ∈ ys) : ∃ x ∈ xs, f x = .ok y := by
  induction xs generalizing ys with
  | nil =>
    cases mapped
    cases member
  | cons head tail ih =>
    rw [List.mapM_cons, bind_eq_ok] at mapped
    obtain ⟨first, isFirst, rest⟩ := mapped
    obtain ⟨later, areLater, done⟩ := bind_eq_ok.1 rest
    cases done
    rcases List.mem_cons.1 member with rfl | inLater
    · exact ⟨head, List.mem_cons_self, isFirst⟩
    · obtain ⟨x, found, maps⟩ := ih areLater inLater
      exact ⟨x, List.mem_cons_of_mem head found, maps⟩

theorem mapM_eq_map {f : α → Except ε β} {g : α → β} {xs : List α}
    (each : ∀ x ∈ xs, f x = .ok (g x)) : xs.mapM f = .ok (xs.map g) := by
  induction xs with
  | nil => rfl
  | cons head tail ih =>
    rw [List.mapM_cons, each head List.mem_cons_self,
      ih fun x member => each x (List.mem_cons_of_mem head member)]
    rfl

/-- A list of checks fails with the problem of the first element that has one. -/
theorem mapM_eq_elim {f : α → Except ε β} {problem? : α → Option ε} {g : α → β} {xs : List α}
    (each : ∀ x ∈ xs, f x = (problem? x).elim (.ok (g x)) .error) :
    xs.mapM f = (xs.findSome? problem?).elim (.ok (xs.map g)) .error := by
  induction xs with
  | nil => rfl
  | cons head tail ih =>
    rw [List.mapM_cons, each head List.mem_cons_self, List.findSome?_cons]
    cases problem? head with
    | some e => rfl
    | none =>
      rw [ih fun x member => each x (List.mem_cons_of_mem head member)]
      cases tail.findSome? problem? <;> rfl

end Checked

/-! ### Actions -/

namespace Action

@[simp] theorem ofExcept_ok (a : α) : ofExcept (.ok a : Except ε α) = pure a := rfl

theorem ofExcept_error (e : ε) : (ofExcept (.error e : Except ε α)) = throw e := rfl

@[simp] theorem throw_bind (e : ε) (f : α → Action ε β) : (throw e >>= f : Action ε β) = throw e :=
  rfl

theorem bind_apply_ok {x : Action ε α} {h h' : Heap} {a : α} (f : α → Action ε β)
    (ran : x h = (.ok a, h')) : (x >>= f) h = f a h' := by
  show ExceptT.bind x f h = _
  simp only [ExceptT.bind, ExceptT.mk, bind, StateT.bind]
  rw [ran]
  rfl

theorem bind_apply_error {x : Action ε α} {h h' : Heap} {e : ε} (f : α → Action ε β)
    (ran : x h = (.error e, h')) : (x >>= f) h = (.error e, h') := by
  show ExceptT.bind x f h = _
  simp only [ExceptT.bind, ExceptT.mk, bind, StateT.bind]
  rw [ran]
  rfl

theorem exists_of_bind_apply {x : Action ε α} {f : α → Action ε β} {h after : Heap} {b : β}
    (ends : (x >>= f) h = (.ok b, after)) :
    ∃ a mid, x h = (.ok a, mid) ∧ f a mid = (.ok b, after) := by
  rcases ran : x h with ⟨outcome, mid⟩
  cases outcome with
  | error e =>
    rw [bind_apply_error f ran] at ends
    cases ends
  | ok a =>
    rw [bind_apply_ok f ran] at ends
    exact ⟨a, mid, rfl, ends⟩

/-- A sequence fails where its first action does, or where the rest does after it. -/
theorem cases_of_bind_apply_error {x : Action ε α} {f : α → Action ε β} {h after : Heap} {e : ε}
    (fails : (x >>= f) h = (.error e, after)) :
    x h = (.error e, after) ∨ ∃ a mid, x h = (.ok a, mid) ∧ f a mid = (.error e, after) := by
  rcases ran : x h with ⟨outcome, mid⟩
  cases outcome with
  | error other =>
    rw [bind_apply_error f ran] at fails
    cases fails
    exact .inl rfl
  | ok a =>
    rw [bind_apply_ok f ran] at fails
    exact .inr ⟨a, mid, rfl, fails⟩

/-- Two sequences come to the same on a heap if their first actions do and the rest does after
it. -/
theorem bind_apply_congr {x y : Action ε α} {f g : α → Action ε β} {h : Heap}
    (same : x h = y h) (rest : ∀ a after, y h = (.ok a, after) → f a after = g a after) :
    (x >>= f) h = (y >>= g) h := by
  rcases ran : y h with ⟨e | a, after⟩
  · rw [bind_apply_error f (same.trans ran), bind_apply_error g ran]
  · rw [bind_apply_ok f (same.trans ran), bind_apply_ok g ran, rest a after ran]

theorem ofExcept_bind (x : Except ε α) (f : α → Except ε β) :
    (ofExcept (x >>= f) : Action ε β) = ofExcept x >>= fun a => ofExcept (f a) := by
  cases x <;> rfl

theorem map_bind_ofExcept {x : Action ε α} {wrap : α → β} {unwrap : β → Except ε α}
    (inverse : ∀ a, unwrap (wrap a) = .ok a) :
    (wrap <$> x >>= fun b => ofExcept (unwrap b)) = x := by
  simp only [map_eq_pure_bind, bind_assoc, pure_bind, inverse, ofExcept_ok]
  exact bind_pure x

theorem field?_apply (ref : Ref) (name : String) (h : Heap) :
    (field? ref name : Action ε (Option Slot)) h = (.ok (h.field? ref name), h) := rfl

theorem modifyGet_apply (f : Heap → α × Heap) (h : Heap) :
    (modifyGetThe Heap f : Action ε α) h = (.ok (f h).1, (f h).2) := rfl

theorem store_apply (ref : Ref) (name : String) (slot : Slot) (h : Heap) :
    (store ref name slot : Action ε Bool) h =
      (.ok (h.store? ref name slot).isSome, (h.store? ref name slot).getD h) := by
  rw [store, modifyGet_apply]
  cases h.store? ref name slot <;> rfl

/-- The action leaves every heap alone. -/
def Quiet (x : Action ε α) : Prop := ∀ h : Heap, (x h).2 = h

theorem quiet_ofExcept (r : Except ε α) : (ofExcept r).Quiet := fun _ => rfl

theorem Quiet.heap_eq {x : Action ε α} (quiet : x.Quiet) {h after : Heap} {r : Except ε α}
    (ran : x h = (r, after)) : after = h := by
  have kept := quiet h
  rw [ran] at kept
  exact kept

theorem Quiet.cases {x : Action ε α} (quiet : x.Quiet) (h : Heap) :
    (∃ e, x h = (.error e, h)) ∨ ∃ a, x h = (.ok a, h) := by
  have kept := quiet h
  rcases ran : x h with ⟨outcome, mid⟩
  rw [ran] at kept
  cases kept
  cases outcome with
  | error e => exact .inl ⟨e, rfl⟩
  | ok a => exact .inr ⟨a, rfl⟩

theorem Quiet.bind {x : Action ε α} {f : α → Action ε β} (quiet : x.Quiet)
    (rest : ∀ a, (f a).Quiet) : (x >>= f).Quiet := by
  intro h
  rcases quiet.cases h with ⟨e, fails⟩ | ⟨a, ran⟩
  · rw [bind_apply_error f fails]
  · rw [bind_apply_ok f ran, rest a]

theorem Quiet.exists_of_bind_apply {x : Action ε α} (quiet : x.Quiet) {f : α → Action ε β}
    {h after : Heap} {b : β} (ends : (x >>= f) h = (.ok b, after)) :
    ∃ a, x h = (.ok a, h) ∧ f a h = (.ok b, after) := by
  obtain ⟨a, mid, ran, rest⟩ := Action.exists_of_bind_apply ends
  cases quiet.heap_eq ran
  exact ⟨a, ran, rest⟩

/-- After a first action that leaves the heap alone, only the rest of a sequence can change it. -/
theorem Quiet.error_of_bind_apply {x : Action ε α} (quiet : x.Quiet) {f : α → Action ε β}
    {h after : Heap} {e : ε} (fails : (x >>= f) h = (.error e, after)) :
    after = h ∨ ∃ a, f a h = (.error e, after) := by
  rcases cases_of_bind_apply_error fails with stops | ⟨a, mid, ran, rest⟩
  · exact .inl (quiet.heap_eq stops)
  · cases quiet.heap_eq ran
    exact .inr ⟨a, rest⟩

/-- The action can end with this result. -/
def Yields (x : Action ε α) (a : α) : Prop := ∃ h h' : Heap, x h = (.ok a, h')

theorem yields_ofExcept {r : Except ε α} {a : α} : Yields (ofExcept r) a ↔ r = .ok a := by
  constructor
  · rintro ⟨h, h', ran⟩
    exact congrArg Prod.fst ran
  · intro e
    exact ⟨Heap.empty, Heap.empty, by rw [e]; rfl⟩

theorem bind_congr_of_yields {x : Action ε α} {f g : α → Action ε β}
    (agree : ∀ a, x.Yields a → f a = g a) : x >>= f = x >>= g :=
  funext fun h => bind_apply_congr rfl fun a after ran =>
    congrFun (agree a ⟨h, after, ran⟩) after

end Action

end BeanDispatch
