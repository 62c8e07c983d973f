/-!
# Tables

A table holds one entry per key.  Entries keep the order in which their keys first came in.
-/

namespace RiskGraph

namespace Entries

variable {α : Type}

/-- The keys of a row of entries. -/
def keys (entries : List (String × α)) : List String :=
  entries.map Prod.fst

/-- The first entry under a key. -/
def get? (key : String) : List (String × α) → Option α
  | [] => none
  | (other, value) :: entries => if other = key then some value else get? key entries

/-- The value of the first entry under a key that is there. -/
def under : (entries : List (String × α)) → (key : String) → key ∈ keys entries → α
  | (other, value) :: entries, key, present =>
      if same : other = key then value
      else under entries key (List.mem_of_ne_of_mem (Ne.symm same) present)

/-- Replaces the first entry under a key, or adds one at the end. -/
def put (key : String) (value : α) : List (String × α) → List (String × α)
  | [] => [(key, value)]
  | (other, old) :: entries =>
      if other = key then (key, value) :: entries else (other, old) :: put key value entries

theorem keys_put (key : String) (value : α) (entries : List (String × α)) :
    keys (put key value entries) =
      if key ∈ keys entries then keys entries else keys entries ++ [key] := by
  induction entries with
  | nil => simp [keys, put]
  | cons entry entries induction =>
      obtain ⟨other, old⟩ := entry
      by_cases same : other = key
      · simp [keys, put, same]
      · have different : ¬key = other := fun equal => same equal.symm
        simp only [put, if_neg same, keys, List.map_cons, List.mem_cons] at induction ⊢
        rw [induction]
        by_cases member : key ∈ List.map Prod.fst entries <;> simp [member, different]

theorem nodup_keys_put (key : String) (value : α) {entries : List (String × α)}
    (distinct : (keys entries).Nodup) : (keys (put key value entries)).Nodup := by
  rw [keys_put]
  split
  · exact distinct
  · next absent =>
      refine List.nodup_append.mpr ⟨distinct, by simp, ?_⟩
      intro other member last single equal
      exact absent (List.mem_singleton.mp single ▸ equal ▸ member)

theorem get?_put_self (key : String) (value : α) (entries : List (String × α)) :
    get? key (put key value entries) = some value := by
  induction entries with
  | nil => simp [get?, put]
  | cons entry entries induction =>
      by_cases same : entry.1 = key <;> simp [get?, put, same, induction]

theorem get?_put_of_ne {key other : String} (different : other ≠ key) (value : α)
    (entries : List (String × α)) : get? other (put key value entries) = get? other entries := by
  induction entries with
  | nil => simp [get?, put, different.symm]
  | cons entry entries induction =>
      obtain ⟨present, old⟩ := entry
      by_cases same : present = key
      · simp [get?, put, same, different.symm]
      · simp only [put, if_neg same, get?, induction]

/-- Under distinct keys each entry is found. -/
theorem get?_eq_some_iff {entries : List (String × α)} (distinct : (keys entries).Nodup)
    {key : String} {value : α} : get? key entries = some value ↔ (key, value) ∈ entries := by
  induction entries with
  | nil => simp [get?]
  | cons entry entries induction =>
      obtain ⟨other, old⟩ := entry
      obtain ⟨absent, distinct⟩ := List.nodup_cons.mp distinct
      by_cases same : other = key
      · subst same
        have no_other : (other, value) ∉ entries := fun member =>
          absent (List.mem_map.mpr ⟨_, member, rfl⟩)
        simp [get?, no_other, eq_comm]
      · simp [get?, same, induction distinct, Ne.symm same]

theorem get?_eq_some_under {entries : List (String × α)} {key : String}
    (present : key ∈ keys entries) : get? key entries = some (under entries key present) := by
  induction entries with
  | nil => cases present
  | cons entry entries induction =>
      obtain ⟨other, value⟩ := entry
      by_cases same : other = key
      · simp [get?, under, same]
      · rw [get?, under, if_neg same, dif_neg same, induction]

/-- Distinct keys with what is found under each are the entries. -/
theorem map_attach_keys {entries : List (String × α)} (distinct : (keys entries).Nodup) :
    ((keys entries).attach.map fun key => (key.val, under entries key.val key.property)) =
      entries := by
  refine List.ext_getElem (by simp [keys]) fun position _ inside => ?_
  have member : entries[position] ∈ entries := List.getElem_mem inside
  have found : get? entries[position].1 entries = some entries[position].2 :=
    (get?_eq_some_iff distinct).mpr member
  rw [get?_eq_some_under (List.mem_map_of_mem member), Option.some_inj] at found
  simp only [List.getElem_map, List.getElem_attach, keys]
  exact Prod.ext rfl found

end Entries

/-- Values under distinct keys. -/
structure Table (α : Type) where
  entries : List (String × α)
  distinct : (Entries.keys entries).Nodup

namespace Table

variable {α : Type}

def empty : Table α :=
  ⟨[], List.nodup_nil⟩

/-- The value under a key. -/
def get? (table : Table α) (key : String) : Option α :=
  Entries.get? key table.entries

/-- Sets the value under a key. -/
def insert (table : Table α) (key : String) (value : α) : Table α :=
  ⟨Entries.put key value table.entries, Entries.nodup_keys_put key value table.distinct⟩

def size (table : Table α) : Nat :=
  table.entries.length

/-- Changes each value, which may depend on its key. -/
def mapValues (table : Table α) (change : String → α → α) : Table α :=
  ⟨table.entries.map fun entry => (entry.1, change entry.1 entry.2), by
    have keys_eq : Entries.keys (table.entries.map fun entry => (entry.1, change entry.1 entry.2)) =
        Entries.keys table.entries := by
      rw [Entries.keys, List.map_map]
      rfl
    exact keys_eq ▸ table.distinct⟩

/-- The table of a row of entries; of entries under one key the last counts. -/
def ofList (entries : List (String × α)) : Table α :=
  entries.foldl (fun table (key, value) => table.insert key value) empty

@[simp]
theorem get?_empty (key : String) : (empty : Table α).get? key = none :=
  rfl

@[simp]
theorem get?_insert_self (table : Table α) (key : String) (value : α) :
    (table.insert key value).get? key = some value :=
  Entries.get?_put_self key value table.entries

theorem get?_insert_of_ne (table : Table α) {key other : String} (different : other ≠ key)
    (value : α) : (table.insert key value).get? other = table.get? other :=
  Entries.get?_put_of_ne different value table.entries

theorem eq_empty_of_size_eq_zero {table : Table α} (none_in : table.size = 0) : table = empty := by
  obtain ⟨entries, distinct⟩ := table
  obtain rfl := List.eq_nil_of_length_eq_zero none_in
  rfl

theorem size_mapValues (table : Table α) (change : String → α → α) :
    (table.mapValues change).size = table.size :=
  List.length_map _

@[simp]
theorem mapValues_id (table : Table α) : table.mapValues (fun _ value => value) = table := by
  simp [mapValues]

theorem get?_mapValues (table : Table α) (change : String → α → α) (key : String) :
    (table.mapValues change).get? key = (table.get? key).map (change key) := by
  obtain ⟨entries, distinct⟩ := table
  simp only [get?, mapValues]
  clear distinct
  induction entries with
  | nil => rfl
  | cons entry entries induction =>
      obtain ⟨other, value⟩ := entry
      by_cases same : other = key
      · simp [Entries.get?, same]
      · simp only [List.map_cons, Entries.get?, if_neg same, induction]

/-- Of the entries under a key the last is found. -/
theorem get?_ofList (entries : List (String × α)) (key : String) :
    (ofList entries).get? key = Entries.get? key entries.reverse := by
  rw [ofList, List.foldl_eq_foldr_reverse]
  induction entries.reverse with
  | nil => rfl
  | cons entry entries induction =>
      obtain ⟨other, value⟩ := entry
      rw [List.foldr_cons, Entries.get?]
      by_cases same : other = key
      · rw [if_pos same, same, get?_insert_self]
      · rw [if_neg same, get?_insert_of_ne _ (Ne.symm same), induction]

/-- A table of entries under distinct keys holds exactly these. -/
theorem get?_ofList_eq_some_iff {entries : List (String × α)}
    (distinct : (Entries.keys entries).Nodup) {key : String} {value : α} :
    (ofList entries).get? key = some value ↔ (key, value) ∈ entries := by
  have reversed : (Entries.keys entries.reverse).Nodup := by
    rw [Entries.keys, List.map_reverse]
    exact (List.reverse_perm _).nodup_iff.mpr distinct
  rw [get?_ofList, Entries.get?_eq_some_iff reversed, List.mem_reverse]

end Table
end RiskGraph
