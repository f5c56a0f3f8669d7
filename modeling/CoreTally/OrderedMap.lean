/-
  This file defines finite maps whose entries are kept in
  ascending key order. Two maps with the same lookups are
  equal, so the order in which keys were added never shows.

  Key definitions include:
    * `OrderedMap`
    * `OrderedMap.find?`
    * `OrderedMap.insert`
    * `OrderedMap.erase`
    * `OrderedMap.filterMap`
    * `OrderedMap.keys`

  Key theorems include:
    * `OrderedMap.find?_insert`
    * `OrderedMap.find?_erase`
    * `OrderedMap.find?_filterMap`
    * `OrderedMap.mem_keys_iff`
    * `OrderedMap.nodup_keys`
    * `OrderedMap.ext_find?`
    * `OrderedMap.countP_insert`
-/

namespace CoreTally

------------------------------------------------------------
-- Ascending Association Lists
------------------------------------------------------------

namespace Ascending

variable {κ α β : Type} [Ord κ]

/- Every key is smaller than all keys after it. -/
def Sorted (entries : List (κ × α)) : Prop :=
  entries.Pairwise fun a b => compare a.1 b.1 = .lt

/- The value stored for a key. -/
def lookup (key : κ) : List (κ × α) → Option α
  | [] => none
  | (k, v) :: rest =>
      match compare key k with
      | .lt => none
      | .eq => some v
      | .gt => lookup key rest

/- Store a value, in place of an older one for the same key. -/
def put
    (key : κ)
    (value : α) : List (κ × α) → List (κ × α)
  | [] => [(key, value)]
  | (k, v) :: rest =>
      match compare key k with
      | .lt => (key, value) :: (k, v) :: rest
      | .eq => (key, value) :: rest
      | .gt => (k, v) :: put key value rest

/- Drop the value stored for a key. -/
def remove (key : κ) (entries : List (κ × α)) : List (κ × α) :=
  entries.filter fun entry => compare key entry.1 != .eq

/- Map the values, dropping those that have no image. -/
def mapValues?
    (f : κ → α → Option β)
    (entries : List (κ × α)) : List (κ × β) :=
  entries.filterMap fun entry =>
    (f entry.1 entry.2).map (entry.1, ·)

/- A key stored by `put` is the new key or an old one. -/
theorem mem_put
    {key : κ}
    {value : α}
    {entries : List (κ × α)}
    {entry : κ × α}
    (h : entry ∈ put key value entries) :
    entry = (key, value) ∨ entry ∈ entries := by
  induction entries with
  | nil => exact .inl (by simpa [put] using h)
  | cons head rest ih =>
      simp only [put] at h
      split at h
      · simpa using h
      · rcases List.mem_cons.mp h with h | h
        · exact .inl h
        · exact .inr (List.mem_cons_of_mem _ h)
      · rcases List.mem_cons.mp h with h | h
        · exact .inr (by simp [h])
        · rcases ih h with h | h
          · exact .inl h
          · exact .inr (List.mem_cons_of_mem _ h)

/- `put` keeps the keys ascending. -/
theorem sorted_put
    [Std.TransOrd κ]
    (key : κ)
    (value : α)
    {entries : List (κ × α)}
    (h : Sorted entries) :
    Sorted (put key value entries) := by
  induction entries with
  | nil => exact List.pairwise_singleton _ _
  | cons head rest ih =>
      obtain ⟨hHead, hRest⟩ := List.pairwise_cons.mp h
      simp only [put]
      split
      · rename_i hlt
        refine List.pairwise_cons.mpr ⟨?_, h⟩
        intro entry hentry
        rcases List.mem_cons.mp hentry with rfl | hentry
        · exact hlt
        · exact Std.TransCmp.lt_trans hlt (hHead entry hentry)
      · rename_i heq
        refine List.pairwise_cons.mpr ⟨?_, hRest⟩
        intro entry hentry
        exact Std.TransCmp.lt_of_eq_of_lt heq (hHead entry hentry)
      · rename_i hgt
        refine List.pairwise_cons.mpr ⟨?_, ih hRest⟩
        intro entry hentry
        rcases mem_put hentry with rfl | hentry
        · exact Std.OrientedCmp.lt_of_gt hgt
        · exact hHead entry hentry

/- `remove` keeps the keys ascending. -/
theorem sorted_remove
    (key : κ)
    {entries : List (κ × α)}
    (h : Sorted entries) :
    Sorted (remove key entries) :=
  List.Pairwise.filter _ h

/- `mapValues?` keeps the keys ascending. -/
theorem sorted_mapValues?
    (f : κ → α → Option β)
    {entries : List (κ × α)}
    (h : Sorted entries) :
    Sorted (mapValues? f entries) := by
  refine List.Pairwise.filterMap _ ?_ h
  intro a b hab a' ha b' hb
  obtain ⟨_, _, rfl⟩ := Option.map_eq_some_iff.mp ha
  obtain ⟨_, _, rfl⟩ := Option.map_eq_some_iff.mp hb
  exact hab

end Ascending

------------------------------------------------------------
-- Ordered Maps
------------------------------------------------------------

/- A finite map, listed by ascending key. -/
structure OrderedMap (κ α : Type) [Ord κ] where
  toList : List (κ × α)
  sorted : Ascending.Sorted toList

namespace OrderedMap

variable {κ α β : Type} [Ord κ]

instance [DecidableEq κ] [DecidableEq α] :
    DecidableEq (OrderedMap κ α) :=
  fun a b =>
    if h : a.toList = b.toList then
      .isTrue (by cases a; cases b; cases h; rfl)
    else
      .isFalse fun hab => h (congrArg toList hab)

/- The map without entries. -/
def empty : OrderedMap κ α :=
  ⟨[], List.Pairwise.nil⟩

instance : Inhabited (OrderedMap κ α) :=
  ⟨empty⟩

/- The value stored for a key. -/
def find? (m : OrderedMap κ α) (key : κ) : Option α :=
  Ascending.lookup key m.toList

/- A key has a value. -/
def contains (m : OrderedMap κ α) (key : κ) : Bool :=
  (m.find? key).isSome

/- Store a value, in place of an older one for the same key. -/
def insert
    [Std.TransOrd κ]
    (m : OrderedMap κ α)
    (key : κ)
    (value : α) : OrderedMap κ α :=
  ⟨Ascending.put key value m.toList,
    Ascending.sorted_put key value m.sorted⟩

/- Drop the value stored for a key. -/
def erase (m : OrderedMap κ α) (key : κ) : OrderedMap κ α :=
  ⟨Ascending.remove key m.toList,
    Ascending.sorted_remove key m.sorted⟩

/- Map the values, dropping those that have no image. -/
def filterMap
    (f : κ → α → Option β)
    (m : OrderedMap κ α) : OrderedMap κ β :=
  ⟨Ascending.mapValues? f m.toList,
    Ascending.sorted_mapValues? f m.sorted⟩

/- Keys in ascending order. -/
def keys (m : OrderedMap κ α) : List κ :=
  m.toList.map Prod.fst

/- Number of entries. -/
def size (m : OrderedMap κ α) : Nat :=
  m.toList.length

/- A map built from pairs; a later pair replaces an earlier one. -/
def ofList [Std.TransOrd κ] (pairs : List (κ × α)) : OrderedMap κ α :=
  pairs.foldl (fun m pair => m.insert pair.1 pair.2) empty

------------------------------------------------------------
-- Lookup Laws
------------------------------------------------------------

@[simp] theorem find?_empty (key : κ) :
    (empty : OrderedMap κ α).find? key = none :=
  rfl

/- Lookup succeeds exactly on listed entries. -/
theorem lookup_eq_some_iff
    [Std.TransOrd κ]
    [Std.LawfulEqOrd κ]
    {entries : List (κ × α)}
    (h : Ascending.Sorted entries)
    {key : κ}
    {value : α} :
    Ascending.lookup key entries = some value ↔
      (key, value) ∈ entries := by
  induction entries with
  | nil => simp [Ascending.lookup]
  | cons head rest ih =>
      obtain ⟨hHead, hRest⟩ := List.pairwise_cons.mp h
      obtain ⟨k, v⟩ := head
      simp only [Ascending.lookup]
      split
      · rename_i hlt
        refine ⟨fun h => by simp at h, fun hmem => ?_⟩
        rcases List.mem_cons.mp hmem with heq | hmem
        · cases heq
          simp [Std.ReflCmp.compare_self] at hlt
        · have := Std.TransCmp.lt_trans hlt (hHead _ hmem)
          simp [Std.ReflCmp.compare_self] at this
      · rename_i heq
        cases Std.LawfulEqCmp.compare_eq_iff_eq.mp heq
        refine ⟨fun h => by simp_all, fun hmem => ?_⟩
        rcases List.mem_cons.mp hmem with heq | hmem
        · cases heq
          rfl
        · have := hHead _ hmem
          simp [Std.ReflCmp.compare_self] at this
      · rename_i hgt
        rw [ih hRest]
        refine ⟨List.mem_cons_of_mem _, fun hmem => ?_⟩
        rcases List.mem_cons.mp hmem with heq | hmem
        · cases heq
          simp [Std.ReflCmp.compare_self] at hgt
        · exact hmem

/- A map holds exactly the listed entries. -/
theorem find?_eq_some_iff
    [Std.TransOrd κ]
    [Std.LawfulEqOrd κ]
    {m : OrderedMap κ α}
    {key : κ}
    {value : α} :
    m.find? key = some value ↔ (key, value) ∈ m.toList :=
  lookup_eq_some_iff m.sorted

/- Storing a value changes the lookup of its key only. -/
theorem find?_insert
    [Std.TransOrd κ]
    [Std.LawfulEqOrd κ]
    [DecidableEq κ]
    (m : OrderedMap κ α)
    (key other : κ)
    (value : α) :
    (m.insert key value).find? other =
      if other = key then some value else m.find? other := by
  obtain ⟨entries, hSorted⟩ := m
  simp only [find?, insert]
  clear hSorted
  induction entries with
  | nil =>
      by_cases h : other = key
      · subst h
        simp [Ascending.put, Ascending.lookup, Std.ReflCmp.compare_self]
      · have hne : compare other key ≠ .eq := fun h' =>
          h (Std.LawfulEqCmp.compare_eq_iff_eq.mp h')
        simp only [Ascending.put, Ascending.lookup, h, if_false]
        split <;> simp_all
  | cons head rest ih =>
      obtain ⟨k, v⟩ := head
      simp only [Ascending.put]
      by_cases h : other = key
      · subst h
        simp only [if_true] at ih ⊢
        split
        · simp [Ascending.lookup, Std.ReflCmp.compare_self]
        · simp [Ascending.lookup, Std.ReflCmp.compare_self]
        · rename_i hgt
          simp [Ascending.lookup, hgt, ih]
      · simp only [h, if_false] at ih ⊢
        split
        · rename_i hlt
          simp only [Ascending.lookup]
          cases hc : compare other key with
          | lt => simp [Std.TransCmp.lt_trans hc hlt]
          | eq => exact absurd (Std.LawfulEqCmp.compare_eq_iff_eq.mp hc) h
          | gt => rfl
        · rename_i heq
          cases Std.LawfulEqCmp.compare_eq_iff_eq.mp heq
          simp only [Ascending.lookup]
          cases hc : compare other key with
          | lt => rfl
          | eq => exact absurd (Std.LawfulEqCmp.compare_eq_iff_eq.mp hc) h
          | gt => rfl
        · simp only [Ascending.lookup]
          cases compare other k <;> simp [ih]

/- Dropping a key changes the lookup of that key only. -/
theorem find?_erase
    [Std.TransOrd κ]
    [Std.LawfulEqOrd κ]
    [DecidableEq κ]
    (m : OrderedMap κ α)
    (key other : κ) :
    (m.erase key).find? other =
      if other = key then none else m.find? other := by
  apply Option.ext
  intro value
  rw [find?_eq_some_iff]
  by_cases h : other = key
  · subst h
    simp [erase, Ascending.remove, Std.ReflCmp.compare_self]
  · have hne : compare key other ≠ .eq := fun h' =>
      h (Std.LawfulEqCmp.compare_eq_iff_eq.mp h').symm
    simp [erase, Ascending.remove, h, find?_eq_some_iff, hne]

/- Mapping the values maps every lookup. -/
theorem find?_filterMap
    [Std.TransOrd κ]
    [Std.LawfulEqOrd κ]
    (f : κ → α → Option β)
    (m : OrderedMap κ α)
    (key : κ) :
    (m.filterMap f).find? key = (m.find? key).bind (f key) := by
  apply Option.ext
  intro value
  rw [find?_eq_some_iff]
  simp only [filterMap, Ascending.mapValues?, List.mem_filterMap,
    Option.map_eq_some_iff, Option.bind_eq_some_iff]
  constructor
  · rintro ⟨⟨k, v⟩, hmem, w, hw, heq⟩
    cases heq
    exact ⟨v, find?_eq_some_iff.mpr hmem, hw⟩
  · rintro ⟨v, hv, hw⟩
    exact ⟨(key, v), find?_eq_some_iff.mp hv, value, hw, rfl⟩

/- The keys are those whose lookup succeeds. -/
theorem mem_keys_iff
    [Std.TransOrd κ]
    [Std.LawfulEqOrd κ]
    {m : OrderedMap κ α}
    {key : κ} :
    key ∈ m.keys ↔ ∃ value, m.find? key = some value := by
  simp only [keys, List.mem_map, find?_eq_some_iff]
  constructor
  · rintro ⟨⟨k, v⟩, hmem, rfl⟩
    exact ⟨v, hmem⟩
  · rintro ⟨v, hmem⟩
    exact ⟨(key, v), hmem, rfl⟩

/- Ascending lists with the same entries are equal. -/
private theorem eq_of_sorted_of_mem_iff
    [Std.TransOrd κ]
    [Std.LawfulEqOrd κ] :
    ∀ {as bs : List (κ × α)},
      Ascending.Sorted as →
      Ascending.Sorted bs →
      (∀ entry, entry ∈ as ↔ entry ∈ bs) →
      as = bs
  | [], [], _, _, _ => rfl
  | [], b :: bs, _, _, h => absurd ((h b).mpr (by simp)) (by simp)
  | a :: as, [], _, _, h => absurd ((h a).mp (by simp)) (by simp)
  | a :: as, b :: bs, ha, hb, h => by
      obtain ⟨haHead, haRest⟩ := List.pairwise_cons.mp ha
      obtain ⟨hbHead, hbRest⟩ := List.pairwise_cons.mp hb
      have hab : a = b := by
        rcases List.mem_cons.mp ((h a).mp (by simp)) with hab | hab
        · exact hab
        · rcases List.mem_cons.mp ((h b).mpr (by simp)) with hba | hba
          · exact hba.symm
          · have := Std.TransCmp.lt_trans (haHead b hba) (hbHead a hab)
            simp [Std.ReflCmp.compare_self] at this
      subst hab
      have hne : ∀ entry ∈ as, entry ≠ a := by
        rintro entry hmem rfl
        have := haHead _ hmem
        simp [Std.ReflCmp.compare_self] at this
      have hne' : ∀ entry ∈ bs, entry ≠ a := by
        rintro entry hmem rfl
        have := hbHead _ hmem
        simp [Std.ReflCmp.compare_self] at this
      rw [eq_of_sorted_of_mem_iff haRest hbRest]
      intro entry
      have := h entry
      simp only [List.mem_cons] at this
      constructor
      · intro hmem
        exact (this.mp (.inr hmem)).resolve_left (hne entry hmem)
      · intro hmem
        exact (this.mpr (.inr hmem)).resolve_left (hne' entry hmem)

/- Maps with the same lookups are equal. -/
theorem ext_find?
    [Std.TransOrd κ]
    [Std.LawfulEqOrd κ]
    {m n : OrderedMap κ α}
    (h : ∀ key, m.find? key = n.find? key) :
    m = n := by
  have hList : m.toList = n.toList := by
    refine eq_of_sorted_of_mem_iff m.sorted n.sorted ?_
    rintro ⟨key, value⟩
    rw [← find?_eq_some_iff, ← find?_eq_some_iff, h]
  cases m
  cases n
  cases hList
  rfl

------------------------------------------------------------
-- Counting
------------------------------------------------------------

/- No key is listed twice. -/
theorem nodup_keys
    [Std.TransOrd κ]
    (m : OrderedMap κ α) :
    m.keys.Nodup := by
  apply List.pairwise_map.mpr
  refine m.sorted.imp ?_
  intro a b hLess hSame
  rw [hSame] at hLess
  simp [Std.ReflCmp.compare_self] at hLess

/-
  Storing a value counts it in place of the value that the key
  had before.
-/
theorem countP_insert
    [Std.TransOrd κ]
    [Std.LawfulEqOrd κ]
    (m : OrderedMap κ α)
    (key : κ)
    (value : α)
    (p : κ × α → Bool) :
    (m.insert key value).toList.countP p +
        (match m.find? key with
        | none => 0
        | some old => if p (key, old) then 1 else 0) =
      m.toList.countP p + if p (key, value) then 1 else 0 := by
  rcases m with ⟨entries, hSorted⟩
  simp only [find?, insert]
  clear hSorted
  induction entries with
  | nil => simp [Ascending.put, Ascending.lookup, List.countP_cons]
  | cons head rest ih =>
      rcases head with ⟨k, v⟩
      simp only [Ascending.put, Ascending.lookup]
      cases hOrder : compare key k with
      | lt => simp [List.countP_cons]
      | eq =>
          cases Std.LawfulEqCmp.compare_eq_iff_eq.mp hOrder
          simp only [List.countP_cons]
          omega
      | gt =>
          simp only [List.countP_cons]
          omega

end OrderedMap

end CoreTally
