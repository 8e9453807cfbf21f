/-!
# Maps from names in name order

A `NameMap` lists its entries with strictly increasing names, compared by code
points. The list is therefore determined by the lookups: two maps are equal as
soon as they list the same entries, and every walk over a map goes in name
order. Inserting under a name that is present replaces its value.
-/

namespace PackageFlags

/-- Values under distinct names, listed in name order. -/
structure NameMap (α : Type) where
  /-- The entries with increasing names. -/
  entries : List (String × α)
  /-- The names increase strictly. -/
  increasing : entries.Pairwise fun left right => left.1 < right.1
  deriving DecidableEq

namespace NameMap

variable {α β : Type}

/-- Put a value under a name into an increasing list, replacing what is there. -/
def insertEntry
    (name : String)
    (value : α) : List (String × α) -> List (String × α)
  | [] => [(name, value)]
  | entry :: rest =>
      if name < entry.1 then
        (name, value) :: entry :: rest
      else if name = entry.1 then
        (name, value) :: rest
      else
        entry :: insertEntry name value rest

theorem mem_insertEntry
    {name : String}
    {value : α}
    {entries : List (String × α)}
    {entry : String × α}
    (member : entry ∈ insertEntry name value entries) :
    entry = (name, value) ∨ entry ∈ entries := by
  induction entries with
  | nil => simpa [insertEntry] using member
  | cons first rest remaining =>
      unfold insertEntry at member
      split at member
      · simpa using member
      · split at member
        · rcases List.mem_cons.mp member with same | later
          · exact Or.inl same
          · exact Or.inr (List.mem_cons_of_mem _ later)
        · rcases List.mem_cons.mp member with same | later
          · exact Or.inr (same ▸ List.mem_cons_self)
          · rcases remaining later with new | old
            · exact Or.inl new
            · exact Or.inr (List.mem_cons_of_mem _ old)

theorem insertEntry_increasing
    (name : String)
    (value : α)
    {entries : List (String × α)}
    (increasing : entries.Pairwise fun left right => left.1 < right.1) :
    (insertEntry name value entries).Pairwise
      fun left right => left.1 < right.1 := by
  induction entries with
  | nil => simp [insertEntry]
  | cons first rest remaining =>
      obtain ⟨beforeRest, restIncreasing⟩ := List.pairwise_cons.mp increasing
      unfold insertEntry
      split
      · rename_i smaller
        refine List.pairwise_cons.mpr ⟨?_, increasing⟩
        intro entry member
        rcases List.mem_cons.mp member with same | later
        · exact same ▸ smaller
        · exact String.lt_trans smaller (beforeRest entry later)
      · split
        · rename_i same
          exact List.pairwise_cons.mpr
            ⟨fun entry later => same ▸ beforeRest entry later, restIncreasing⟩
        · rename_i notSmaller notSame
          refine List.pairwise_cons.mpr ⟨?_, remaining restIncreasing⟩
          intro entry member
          rcases mem_insertEntry member with new | old
          · subst new
            exact Std.lt_of_le_of_ne
              (String.not_lt.mp notSmaller) (Ne.symm notSame)
          · exact beforeRest entry old

/-- The map without entries. -/
def empty : NameMap α := ⟨[], List.Pairwise.nil⟩

/-- Put a value under a name, replacing the value that was there. -/
def insert (map : NameMap α) (name : String) (value : α) : NameMap α :=
  ⟨insertEntry name value map.entries,
    insertEntry_increasing name value map.increasing⟩

/-- Take away what is under a name. -/
def erase (map : NameMap α) (name : String) : NameMap α :=
  ⟨map.entries.filter fun entry => entry.1 ≠ name,
    map.increasing.sublist List.filter_sublist⟩

/-- The map of a list of entries; of several under one name the last wins. -/
def ofList (entries : List (String × α)) : NameMap α :=
  entries.foldl (fun map entry => map.insert entry.1 entry.2) empty

/-- The value under a name. -/
def get? (map : NameMap α) (name : String) : Option α :=
  map.entries.lookup name

theorem mem_entries_of_get?
    {map : NameMap α}
    {name : String}
    {value : α}
    (found : map.get? name = some value) :
    (name, value) ∈ map.entries := by
  obtain ⟨before, after, split, _⟩ := List.lookup_eq_some_iff.mp found
  simp [split]

theorem lookup_entry_cons
    (name : String)
    (first : String × α)
    (rest : List (String × α)) :
    (first :: rest).lookup name =
      if name = first.1 then some first.2 else rest.lookup name := by
  obtain ⟨firstName, firstValue⟩ := first
  by_cases same : name = firstName
  · simp [same]
  · simp [List.lookup_cons, same, beq_false_of_ne same]

/-- In an increasing list an entry is what its name is looked up as. -/
theorem lookup_of_mem_entries
    {entries : List (String × α)}
    (increasing : entries.Pairwise fun left right => left.1 < right.1)
    {name : String}
    {value : α}
    (member : (name, value) ∈ entries) :
    entries.lookup name = some value := by
  induction entries with
  | nil => simp at member
  | cons first rest remaining =>
      obtain ⟨beforeRest, restIncreasing⟩ := List.pairwise_cons.mp increasing
      rw [lookup_entry_cons]
      rcases List.mem_cons.mp member with same | later
      · simp [← same]
      · have different : name ≠ first.1 :=
          (String.ne_of_lt (beforeRest _ later)).symm
        rw [if_neg different]
        exact remaining restIncreasing later

theorem get?_eq_some_iff
    {map : NameMap α}
    {name : String}
    {value : α} :
    map.get? name = some value ↔ (name, value) ∈ map.entries :=
  ⟨mem_entries_of_get?, lookup_of_mem_entries map.increasing⟩

/-- Whether there is a value under a name. -/
def contains (map : NameMap α) (name : String) : Bool :=
  (map.get? name).isSome

/-- The names in order. -/
def names (map : NameMap α) : List String :=
  map.entries.map Prod.fst

theorem mem_names_of_get?
    {map : NameMap α}
    {name : String}
    {value : α}
    (found : map.get? name = some value) :
    name ∈ map.names :=
  List.mem_map.mpr ⟨(name, value), mem_entries_of_get? found, rfl⟩

theorem mem_names_iff {map : NameMap α} {name : String} :
    name ∈ map.names ↔ exists value, map.get? name = some value := by
  simp [names, get?_eq_some_iff]

/-- Two maps are equal when they have the same values under all names. -/
@[ext] theorem ext
    {left right : NameMap α}
    (same : forall name, left.get? name = right.get? name) :
    left = right := by
  have sameMembers : forall entry, entry ∈ left.entries ↔ entry ∈ right.entries := by
    intro entry
    rw [← get?_eq_some_iff, ← get?_eq_some_iff, same]
  have distinct : forall map : NameMap α, map.entries.Nodup := by
    intro map
    refine map.increasing.imp ?_
    intro before after less equal
    exact String.lt_irrefl _ (equal ▸ less)
  have entriesSame : left.entries = right.entries := by
    refine List.Perm.eq_of_pairwise ?_ left.increasing right.increasing
      ((List.perm_ext_iff_of_nodup (distinct left) (distinct right)).mpr
        sameMembers)
    intro before after _ _ less greater
    exact absurd less (String.lt_asymm greater)
  cases left
  cases right
  congr

@[simp] theorem get?_empty (name : String) :
    (empty : NameMap α).get? name = none := rfl

theorem lookup_insertEntry
    (name other : String)
    (value : α)
    (entries : List (String × α)) :
    (insertEntry name value entries).lookup other =
      if other = name then some value else entries.lookup other := by
  induction entries with
  | nil => simp [insertEntry, lookup_entry_cons]
  | cons first rest remaining =>
      unfold insertEntry
      split
      · rw [lookup_entry_cons]
      · split
        · rename_i isFirst
          rw [lookup_entry_cons, lookup_entry_cons]
          by_cases same : other = name
          · simp [same]
          · have different : other ≠ first.1 := isFirst ▸ same
            simp [same, different]
        · rename_i notFirst
          rw [lookup_entry_cons, lookup_entry_cons, remaining]
          by_cases isFirst : other = first.1
          · have different : other ≠ name := isFirst ▸ Ne.symm notFirst
            simp [isFirst, isFirst ▸ different]
          · simp [isFirst]

@[simp] theorem get?_insert
    (map : NameMap α)
    (name other : String)
    (value : α) :
    (map.insert name value).get? other =
      if other = name then some value else map.get? other :=
  lookup_insertEntry name other value map.entries

theorem get?_insert_self
    (map : NameMap α)
    (name : String)
    (value : α) :
    (map.insert name value).get? name = some value := by
  rw [get?_insert, if_pos rfl]

theorem get?_insert_of_ne
    {map : NameMap α}
    {name other : String}
    {value : α}
    (different : other ≠ name) :
    (map.insert name value).get? other = map.get? other := by
  rw [get?_insert, if_neg different]

/-- No other name has a value after a value has been replaced. -/
theorem contains_insert_of_get?
    {map : NameMap α}
    {name : String}
    {old : α}
    (isThere : map.get? name = some old)
    (value : α)
    (other : String) :
    (map.insert name value).contains other = map.contains other := by
  unfold contains
  rw [get?_insert]
  split
  case isTrue isName =>
    rw [isName, isThere]
    rfl
  case isFalse => rfl

@[simp] theorem get?_erase
    (map : NameMap α)
    (name other : String) :
    (map.erase name).get? other =
      if other = name then none else map.get? other := by
  apply Option.ext
  intro value
  rw [get?_eq_some_iff]
  by_cases same : other = name
  · simp [erase, same]
  · simp [erase, same, get?_eq_some_iff]

theorem ofList_concat
    (entries : List (String × α))
    (name : String)
    (value : α) :
    ofList (entries ++ [(name, value)]) = (ofList entries).insert name value := by
  rw [ofList, List.foldl_append]
  rfl

/-- A map of a list has no other entries than the list. -/
theorem mem_of_mem_entries_ofList
    {entries : List (String × α)}
    {entry : String × α}
    (member : entry ∈ (ofList entries).entries) :
    entry ∈ entries := by
  have collected : ∀ map : NameMap α,
      entry ∈ (entries.foldl (fun map entry => map.insert entry.1 entry.2)
        map).entries →
      entry ∈ map.entries ∨ entry ∈ entries := by
    clear member
    induction entries with
    | nil => exact fun map member => Or.inl member
    | cons first rest restCollected =>
        intro map member
        rcases restCollected (map.insert first.1 first.2) member with old | later
        · rcases mem_insertEntry old with isFirst | older
          · exact Or.inr (isFirst ▸ List.mem_cons_self)
          · exact Or.inl older
        · exact Or.inr (List.mem_cons_of_mem first later)
  exact (collected empty member).resolve_left (by simp [empty])

/-- Of several entries of a list under one name the map has the last. -/
theorem get?_ofList (entries : List (String × α)) (name : String) :
    (ofList entries).get? name = entries.reverse.lookup name := by
  have collected : forall map : NameMap α,
      (entries.foldl (fun map entry => map.insert entry.1 entry.2) map).get? name =
        (entries.reverse.lookup name).or (map.get? name) := by
    induction entries with
    | nil => exact fun map => rfl
    | cons first rest restCollected =>
        intro map
        rw [List.foldl_cons, restCollected, get?_insert, List.reverse_cons,
          List.lookup_append, lookup_entry_cons]
        cases rest.reverse.lookup name with
        | some value => rfl
        | none => split <;> rfl
  exact (collected empty).trans Option.or_none

/-- Every name of a list is a name of the map. -/
theorem mem_names_ofList
    {entries : List (String × α)}
    {entry : String × α}
    (member : entry ∈ entries) :
    entry.1 ∈ (ofList entries).names := by
  obtain ⟨value, isValue⟩ := Option.isSome_iff_exists.mp
    (List.lookup_isSome_iff.mpr
      ⟨entry, List.mem_reverse.mpr member, beq_self_eq_true entry.1⟩)
  exact mem_names_of_get? ((get?_ofList entries entry.1).trans isValue)

/-- Whether there are no entries. -/
def isEmpty (map : NameMap α) : Bool :=
  map.entries.isEmpty

/-- The later of two values under one name stays. -/
@[simp] theorem insert_insert
    (map : NameMap α)
    (name : String)
    (first second : α) :
    (map.insert name first).insert name second = map.insert name second := by
  ext1 other
  simp only [get?_insert]
  split <;> rfl

theorem isEmpty_of_get?
    {map : NameMap α}
    {name : String}
    {value : α}
    (found : map.get? name = some value) :
    map.isEmpty = false :=
  List.isEmpty_eq_false_iff_exists_mem.mpr ⟨_, mem_entries_of_get? found⟩

@[simp] theorem isEmpty_insert
    (map : NameMap α)
    (name : String)
    (value : α) :
    (map.insert name value).isEmpty = false :=
  isEmpty_of_get? (get?_insert_self map name value)

end NameMap
end PackageFlags
