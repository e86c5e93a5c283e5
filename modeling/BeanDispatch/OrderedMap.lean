/-! Finite maps from strings that remember the order in which their keys arrived. A map is the
list of its entries with no key twice. Storing under a new key appends an entry; storing under a
present key changes the value and keeps the place, so a list of pairs read as a map keeps the first
place and the last value of each key. `keys_insert` and `get?_insert` say what an insertion does to
the two views of a map, its keys in order and its look-ups, and `keys_ofList` and `get?_ofList` what
a list of pairs comes to. -/

namespace BeanDispatch

variable {α : Type}

/-- Replaces the value of the entry with this key, or appends an entry. -/
def storeEntry (key : String) (value : α) : List (String × α) → List (String × α)
  | [] => [(key, value)]
  | (k, v) :: rest =>
    if k = key then (k, value) :: rest else (k, v) :: storeEntry key value rest

def lookupEntry (key : String) : List (String × α) → Option α
  | [] => none
  | (k, v) :: rest => if k = key then some v else lookupEntry key rest

theorem keys_storeEntry (key : String) (value : α) (entries : List (String × α)) :
    (storeEntry key value entries).map Prod.fst =
      if key ∈ entries.map Prod.fst then entries.map Prod.fst
      else entries.map Prod.fst ++ [key] := by
  induction entries with
  | nil => simp [storeEntry]
  | cons e rest ih =>
    obtain ⟨k, v⟩ := e
    by_cases h : k = key
    · simp [storeEntry, h]
    · by_cases hm : key ∈ rest.map Prod.fst
      · simp [storeEntry, h, ih, hm]
      · have hne : ¬key = k := fun e => h e.symm
        simp [storeEntry, h, hne, ih, hm]

theorem storeEntry_of_fresh {key : String} (value : α) {entries : List (String × α)}
    (fresh : key ∉ entries.map Prod.fst) :
    storeEntry key value entries = entries ++ [(key, value)] := by
  induction entries with
  | nil => rfl
  | cons e rest ih =>
    simp only [List.map_cons, List.mem_cons, not_or] at fresh
    simp [storeEntry, Ne.symm fresh.1, ih fresh.2]

theorem nodup_keys_storeEntry (key : String) (value : α) {entries : List (String × α)}
    (distinct : (entries.map Prod.fst).Nodup) :
    ((storeEntry key value entries).map Prod.fst).Nodup := by
  rw [keys_storeEntry]
  split
  · exact distinct
  · rename_i fresh
    exact List.nodup_append.2 ⟨distinct, by simp, by
      intro a ha b hb e
      simp only [List.mem_singleton] at hb
      exact fresh (hb ▸ e ▸ ha)⟩

theorem lookupEntry_storeEntry (key other : String) (value : α) (entries : List (String × α)) :
    lookupEntry other (storeEntry key value entries) =
      if key = other then some value else lookupEntry other entries := by
  induction entries with
  | nil => simp [storeEntry, lookupEntry]
  | cons e rest ih =>
    obtain ⟨k, v⟩ := e
    by_cases h : k = key
    · subst h
      by_cases ho : k = other <;> simp [storeEntry, lookupEntry, ho]
    · by_cases ho : k = other
      · subst ho
        have hne : ¬key = k := fun e => h e.symm
        simp [storeEntry, lookupEntry, h, hne]
      · simp [storeEntry, lookupEntry, h, ho, ih]

theorem lookupEntry_eq_none_iff (key : String) (entries : List (String × α)) :
    lookupEntry key entries = none ↔ key ∉ entries.map Prod.fst := by
  induction entries with
  | nil => simp [lookupEntry]
  | cons e rest ih =>
    obtain ⟨k, v⟩ := e
    by_cases h : k = key
    · simp [lookupEntry, h]
    · have hne : ¬key = k := fun e => h e.symm
      simp [lookupEntry, h, hne, ih]

theorem lookupEntry_append (key : String) (first second : List (String × α)) :
    lookupEntry key (first ++ second) =
      (lookupEntry key first).or (lookupEntry key second) := by
  induction first with
  | nil => rfl
  | cons e rest ih =>
    obtain ⟨k, v⟩ := e
    by_cases h : k = key
    · simp [lookupEntry, h]
    · simp [lookupEntry, h, ih]

theorem mem_of_lookupEntry {key : String} {value : α} {entries : List (String × α)}
    (found : lookupEntry key entries = some value) : (key, value) ∈ entries := by
  induction entries with
  | nil => cases found
  | cons e rest ih =>
    obtain ⟨k, v⟩ := e
    by_cases h : k = key
    · simp only [lookupEntry, h, ↓reduceIte, Option.some.injEq] at found
      simp [h, found]
    · simp only [lookupEntry, h, ↓reduceIte] at found
      exact List.mem_cons_of_mem _ (ih found)

theorem lookupEntry_of_mem {key : String} {value : α} {entries : List (String × α)}
    (distinct : (entries.map Prod.fst).Nodup) (member : (key, value) ∈ entries) :
    lookupEntry key entries = some value := by
  induction entries with
  | nil => cases member
  | cons e rest ih =>
    obtain ⟨fresh, later⟩ := List.nodup_cons.1 distinct
    rcases List.mem_cons.1 member with rfl | inRest
    · exact if_pos rfl
    · have other : e.1 ≠ key := fun same => fresh (same ▸ List.mem_map_of_mem inRest)
      exact (if_neg other).trans (ih later inRest)

/-- One more element has a place of its own only if it is new. -/
theorem eraseDups_concat [DecidableEq α] (xs : List α) (a : α) :
    (xs ++ [a]).eraseDups = if a ∈ xs then xs.eraseDups else xs.eraseDups ++ [a] := by
  rw [List.eraseDups_append]
  by_cases old : a ∈ xs
  · simp [List.removeAll, old]
  · simp [List.removeAll, old, List.eraseDups_cons]

/-- A map as the list of its entries, no key twice, in order of first insertion. -/
structure OrderedMap (α : Type) where
  entries : List (String × α)
  distinct : (entries.map Prod.fst).Nodup

namespace OrderedMap

def empty : OrderedMap α := ⟨[], by simp⟩

def keys (m : OrderedMap α) : List String := m.entries.map Prod.fst

def isEmpty (m : OrderedMap α) : Bool := m.entries.isEmpty

def size (m : OrderedMap α) : Nat := m.entries.length

def get? (m : OrderedMap α) (key : String) : Option α := lookupEntry key m.entries

def contains (m : OrderedMap α) (key : String) : Bool := (m.get? key).isSome

/-- Stores a value; a key that is present keeps its place. -/
def insert (m : OrderedMap α) (key : String) (value : α) : OrderedMap α :=
  ⟨storeEntry key value m.entries, nodup_keys_storeEntry key value m.distinct⟩

/-- Stores a value under a key that is present; a map without the key is left alone. -/
def replace? (m : OrderedMap α) (key : String) (value : α) : Option (OrderedMap α) :=
  if m.contains key then some (m.insert key value) else none

/-- The map of a list of pairs: each key at its first place with its last value. -/
def ofList (pairs : List (String × α)) : OrderedMap α :=
  pairs.foldl (fun m p => m.insert p.1 p.2) empty

@[ext] theorem ext {m n : OrderedMap α} (h : m.entries = n.entries) : m = n := by
  cases m; cases n; cases h; rfl

@[simp] theorem keys_insert (m : OrderedMap α) (key : String) (value : α) :
    (m.insert key value).keys = if key ∈ m.keys then m.keys else m.keys ++ [key] :=
  keys_storeEntry key value m.entries

@[simp] theorem get?_insert (m : OrderedMap α) (key other : String) (value : α) :
    (m.insert key value).get? other = if key = other then some value else m.get? other :=
  lookupEntry_storeEntry key other value m.entries

/-- Of several pairs with one key the first decides on its place. -/
theorem keys_ofList (pairs : List (String × α)) :
    (ofList pairs).keys = (pairs.map Prod.fst).eraseDups := by
  have stored : ∀ (m : OrderedMap α) (before : List String), m.keys = before.eraseDups →
      (pairs.foldl (fun m p => m.insert p.1 p.2) m).keys =
        (before ++ pairs.map Prod.fst).eraseDups := by
    induction pairs with
    | nil =>
      intro m before same
      rw [List.map_nil, List.append_nil]
      exact same
    | cons p rest ih =>
      intro m before same
      have next : (m.insert p.1 p.2).keys = (before ++ [p.1]).eraseDups := by
        rw [keys_insert, same, eraseDups_concat]
        simp only [List.mem_eraseDups]
      rw [List.foldl_cons, ih _ _ next, List.map_cons, List.append_assoc, List.singleton_append]
  exact stored empty [] rfl

/-- Of several pairs with one key the last decides on its value. -/
theorem get?_ofList (pairs : List (String × α)) (key : String) :
    (ofList pairs).get? key = lookupEntry key pairs.reverse := by
  have stored : ∀ m : OrderedMap α, (pairs.foldl (fun m p => m.insert p.1 p.2) m).get? key =
      (lookupEntry key pairs.reverse).or (m.get? key) := by
    induction pairs with
    | nil => exact fun m => rfl
    | cons p rest ih =>
      intro m
      rw [List.foldl_cons, ih, get?_insert, List.reverse_cons, lookupEntry_append, lookupEntry]
      by_cases h : p.1 = key
      · simp [h]
      · simp [h, lookupEntry]
  exact (stored empty).trans Option.or_none

theorem get?_ofList_of_mem {pairs : List (String × α)} (distinct : (pairs.map Prod.fst).Nodup)
    {key : String} {value : α} (member : (key, value) ∈ pairs) :
    (ofList pairs).get? key = some value := by
  rw [get?_ofList]
  refine lookupEntry_of_mem ?_ (List.mem_reverse.2 member)
  rw [List.map_reverse]
  exact List.pairwise_reverse.2 (distinct.imp Ne.symm)

/-- Pairs whose keys are new and distinct are appended as they stand. -/
theorem entries_foldl_insert (pairs : List (String × α)) (m : OrderedMap α)
    (distinct : ((m.entries ++ pairs).map Prod.fst).Nodup) :
    (pairs.foldl (fun m p => m.insert p.1 p.2) m).entries = m.entries ++ pairs := by
  induction pairs generalizing m with
  | nil => simp
  | cons p rest ih =>
    have fresh : p.1 ∉ m.entries.map Prod.fst := by
      simp only [List.map_append, List.map_cons, List.nodup_append] at distinct
      exact fun old => distinct.2.2 _ old _ List.mem_cons_self rfl
    have stored : (m.insert p.1 p.2).entries = m.entries ++ [p] := storeEntry_of_fresh p.2 fresh
    rw [List.foldl_cons, ih _ (by simpa [stored] using distinct), stored]
    simp

theorem eq_empty_of_isEmpty {m : OrderedMap α} (none : m.isEmpty = true) : m = empty :=
  ext (List.isEmpty_iff.1 none)

@[simp] theorem ofList_entries (m : OrderedMap α) : ofList m.entries = m :=
  ext (entries_foldl_insert m.entries empty m.distinct)

theorem mem_keys_iff (m : OrderedMap α) (key : String) :
    key ∈ m.keys ↔ ∃ value, m.get? key = some value := by
  rw [← Option.ne_none_iff_exists', get?, Ne, lookupEntry_eq_none_iff, Decidable.not_not]
  rfl

end OrderedMap

end BeanDispatch
