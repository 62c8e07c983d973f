import RiskGraph.Proofs.Holding

/-!
# Maps in other orders

The order in which a map yields its entries is no part of what it holds.  Neither the kind of a
value nor its text depends on the orders of the maps in it, nor do its readings and its equality
with another value.  An operator that compares a feature does not either, but for `VALUE_EXIST`,
which does exactly if entries of the map settle its outcome in different ways.
-/

namespace RiskGraph

/-! ## Sorted keys -/

namespace Keys

variable {keys others : Keys}

theorem sorted_congr (rearranged : keys.names.Perm others.names) : keys.sorted = others.sorted := by
  rw [sorted, sorted, mk.injEq]
  exact sortTexts_congr rearranged

theorem sorted_perm (keys : Keys) : keys.sorted.names.Perm keys.names :=
  sortTexts_perm keys.names

theorem map_members_congr {α : Type} {under : keys.Member → α} {values : others.Member → α}
    (same : keys = others)
    (each : ∀ key (here : key ∈ keys.names) (there : key ∈ others.names),
      under ⟨key, here⟩ = values ⟨key, there⟩) :
    keys.members.map under = others.members.map values := by
  subst same
  exact List.map_congr_left fun key _ => each key.val key.property key.property

theorem keys_entries {α : Type} (keys : Keys) (under : keys.Member → α) :
    Entries.keys (keys.entries under) = keys.names := by
  rw [entries, Entries.keys, List.map_map]
  exact List.attach_map_subtype_val keys.names

theorem distinct_entries {α : Type} (keys : Keys) (under : keys.Member → α) :
    (Entries.keys (keys.entries under)).Nodup := by
  rw [keys_entries]
  exact keys.distinct

theorem mem_entries_iff {α : Type} {under : keys.Member → α} {key : String} {value : α} :
    (key, value) ∈ keys.entries under ↔
      ∃ present : key ∈ keys.names, under ⟨key, present⟩ = value := by
  constructor
  · intro member
    obtain ⟨⟨_, present⟩, -, equal⟩ := List.mem_map.mp member
    cases equal
    exact ⟨present, rfl⟩
  · rintro ⟨present, rfl⟩
    exact List.mem_map.mpr ⟨⟨key, present⟩, List.mem_attach _ _, rfl⟩

end Keys

namespace Value

variable {left right value : Value}

/-- The entries of a map in the order in which it yields them; other values have none. -/
def entries : Value → List (String × Value)
  | map keys under => keys.entries under
  | _ => []

theorem map_eq_map_iff {keys others : Keys} {under : keys.Member → Value}
    {values : others.Member → Value} :
    map keys under = map others values ↔
      keys = others ∧ ∀ key (here : key ∈ keys.names) (there : key ∈ others.names),
        under ⟨key, here⟩ = values ⟨key, there⟩ := by
  constructor
  · intro equal
    cases equal
    exact ⟨rfl, fun _ _ _ => rfl⟩
  · rintro ⟨rfl, each⟩
    exact congrArg _ (funext fun key => each key.val key.property key.property)

/-- Maps differ in order if they have the same keys, and under each values that differ so. -/
theorem alike_map_iff {keys others : Keys} {under : keys.Member → Value}
    {values : others.Member → Value} :
    (map keys under).Alike (map others values) ↔
      keys.names.Perm others.names ∧
        ∀ key (here : key ∈ keys.names) (there : key ∈ others.names),
          (under ⟨key, here⟩).Alike (values ⟨key, there⟩) := by
  rw [Alike, sorted, sorted, map_eq_map_iff]
  constructor
  · rintro ⟨same, each⟩
    have rearranged : keys.names.Perm others.names :=
      keys.sorted_perm.symm.trans (same ▸ others.sorted_perm)
    exact ⟨rearranged, fun key here there =>
      each key (keys.sorted_perm.mem_iff.mpr here) (others.sorted_perm.mem_iff.mpr there)⟩
  · rintro ⟨rearranged, each⟩
    exact ⟨Keys.sorted_congr rearranged, fun key here there =>
      each key (keys.sorted_perm.mem_iff.mp here) (others.sorted_perm.mem_iff.mp there)⟩

theorem alike_refl (value : Value) : value.Alike value :=
  rfl

/-- The entries of a table in another order make a map that differs in order. -/
theorem alike_ofTable {table others : Table Value}
    (rearranged : others.entries.Perm table.entries) :
    (ofTable others).Alike (ofTable table) := by
  refine alike_map_iff.mpr ⟨rearranged.map Prod.fst, fun key here there => ?_⟩
  have found := (Entries.get?_eq_some_iff others.distinct).mp (Entries.get?_eq_some_under here)
  have found' := (Entries.get?_eq_some_iff table.distinct).mpr (rearranged.mem_iff.mp found)
  rw [Entries.get?_eq_some_under there, Option.some_inj] at found'
  exact congrArg sorted found'.symm

/-- Maps that differ in order yield entries that do so. -/
theorem entries_perm_of_alike {keys others : Keys} {under : keys.Member → Value}
    {values : others.Member → Value} (alike : (map keys under).Alike (map others values)) :
    ((others.entries values).map (Prod.map id sorted)).Perm
      ((keys.entries under).map (Prod.map id sorted)) := by
  obtain ⟨rearranged, each⟩ := alike_map_iff.mp alike
  have entries_eq : ∀ {keys : Keys} (under : keys.Member → Value),
      (keys.entries under).map (Prod.map id sorted) =
        keys.entries fun key => (under key).sorted := by
    intro keys under
    rw [Keys.entries, List.map_map]
    rfl
  rw [entries_eq, entries_eq, List.perm_ext_iff_of_nodup (others.distinct_entries _).of_map
    (keys.distinct_entries _).of_map]
  rintro ⟨key, value⟩
  rw [Keys.mem_entries_iff, Keys.mem_entries_iff]
  constructor
  · rintro ⟨there, rfl⟩
    exact ⟨rearranged.mem_iff.mpr there, each key _ there⟩
  · rintro ⟨here, rfl⟩
    exact ⟨rearranged.mem_iff.mp here, (each key here _).symm⟩

/-- The entries of a map are those of a table. -/
theorem exists_ofTable_eq {keys : Keys} {under : keys.Member → Value} :
    ∃ table : Table Value, table.entries = keys.entries under ∧ ofTable table = map keys under := by
  let table : Table Value := ⟨keys.entries under, keys.distinct_entries under⟩
  have keys_eq := keys.keys_entries under
  refine ⟨table, rfl, map_eq_map_iff.mpr ⟨(Keys.mk.injEq ..).mpr keys_eq, fun key here there => ?_⟩⟩
  have found := (Entries.get?_eq_some_iff table.distinct).mp (Entries.get?_eq_some_under here)
  exact (Keys.mem_entries_iff.mp found).2.symm

/-! ## Kind, text and equality -/

theorem classify_sorted (value : Value) : value.sorted.classify = value.classify := by
  cases value <;> rfl

mutual

theorem shown_sorted (value : Value) : value.sorted.shown = value.shown := by
  cases value with
  | int | real | bool | date | text | null => rfl
  | array items => rw [sorted, shown, shown, shownItems_sortedItems items]
  | map keys under =>
      have again : keys.sorted.sorted = keys.sorted := Keys.sorted_congr keys.sorted_perm
      rw [sorted, shown, shown]
      refine congrArg (fun texts => "\x7b" ++ ", ".intercalate texts ++ "\x7d") ?_
      refine Keys.map_members_congr again fun key here there => ?_
      exact congrArg (key ++ ": " ++ ·) (shown_sorted (under (keys.unsort ⟨key, there⟩)))
termination_by structural value

theorem shownItems_sortedItems (items : List Value) :
    shownItems (sortedItems items) = shownItems items := by
  cases items with
  | nil => rfl
  | cons item items =>
      rw [sortedItems, shownItems, shownItems, shown_sorted item, shownItems_sortedItems items]
termination_by structural items

end

mutual

theorem same_sorted (value other : Value) : value.sorted.same other = value.same other := by
  cases value with
  | int | real | bool | date | text | null => rfl
  | array items =>
      cases other with
      | array others => rw [sorted, same, same, sameItems_sortedItems items others]
      | _ => rfl
  | map keys under =>
      cases other with
      | map others values =>
          rw [sorted, Bool.eq_iff_iff, same_map_iff, same_map_iff]
          refine and_congr ⟨keys.sorted_perm.symm.trans, keys.sorted_perm.trans⟩ ?_
          constructor
          · intro each key here there
            rw [← same_sorted (under ⟨key, here⟩)]
            exact each key (keys.sorted_perm.mem_iff.mpr here) there
          · intro each key here there
            rw [same_sorted (under (keys.unsort ⟨key, here⟩))]
            exact each key (keys.sorted_perm.mem_iff.mp here) there
      | _ => rfl
termination_by structural value

theorem sameItems_sortedItems (items others : List Value) :
    sameItems (sortedItems items) others = sameItems items others := by
  cases items with
  | nil => rfl
  | cons item items =>
      cases others with
      | nil => rfl
      | cons other others =>
          rw [sortedItems, sameItems, sameItems, same_sorted item, sameItems_sortedItems items]
termination_by structural items

end

/-! ## Readings -/

/-- A reading that is not defined of arrays and maps does not see their order. -/
theorem reading_sorted {α : Type} {read : Value → Except Fault α} {target : Kind}
    (of_array : ∀ items, read (array items) = (array items).fault target)
    (of_map : ∀ keys under, read (map keys under) = (map keys under).fault target)
    (value : Value) : read value.sorted = read value := by
  cases value with
  | int | real | bool | date | text | null => rfl
  | array items => rw [sorted, of_array, of_array, fault, fault, ← sorted, shown_sorted]
  | map keys under => rw [sorted, of_map, of_map, fault, fault, ← sorted, shown_sorted]

theorem toText_sorted (value : Value) : value.sorted.toText = value.toText :=
  reading_sorted (fun _ => rfl) (fun _ _ => rfl) value

theorem toInt64_sorted (value : Value) : value.sorted.toInt64 = value.toInt64 :=
  reading_sorted (fun _ => rfl) (fun _ _ => rfl) value

theorem toReal_sorted (value : Value) : value.sorted.toReal = value.toReal :=
  reading_sorted (fun _ => rfl) (fun _ _ => rfl) value

theorem toBool_sorted (value : Value) : value.sorted.toBool = value.toBool :=
  reading_sorted (fun _ => rfl) (fun _ _ => rfl) value

theorem toMoment_sorted (value : Value) : value.sorted.toMoment = value.toMoment :=
  reading_sorted (fun _ => rfl) (fun _ _ => rfl) value

end Value

/-! ## Steps of a comparison -/

namespace Comparison

variable {operator : Operator} {feature threshold left right value : Value} {kind other : Kind}

theorem kindOf_sorted (value : Value) : kindOf value.sorted = kindOf value := by
  rw [kindOf, kindOf, Value.classify_sorted]

theorem textOf_sorted : textOf operator value.sorted kind = textOf operator value kind := by
  cases value with
  | int | real | bool | date | text | null => rfl
  | array items =>
      have read := congrArg reading (Value.toText_sorted (.array items))
      cases kind <;> first | rfl | exact read
  | map keys under =>
      have read := congrArg reading (Value.toText_sorted (.map keys under))
      cases kind <;> first | rfl | exact read

theorem realOrder_sorted :
    realOrder operator value.sorted threshold = realOrder operator value threshold := by
  rw [realOrder, realOrder, Value.toReal_sorted]

theorem order_sorted :
    order operator value.sorted kind threshold other =
      order operator value kind threshold other := by
  unfold order intOrder
  simp only [realOrder_sorted, Value.toInt64_sorted, Value.toMoment_sorted, Value.toText_sorted]

theorem equality_sorted :
    equality operator value.sorted kind threshold other =
      equality operator value kind threshold other := by
  unfold equality
  simp only [order_sorted, Value.toBool_sorted, Value.same_sorted]

theorem among_sorted {items : List Value} :
    among operator value.sorted kind items = among operator value kind items := by
  induction items with
  | nil => rfl
  | cons item items induction => simp only [among, equality_sorted, induction]

theorem matching_sorted :
    matching operator value.sorted kind threshold other =
      matching operator value kind threshold other := by
  rw [matching, matching, equality_sorted]

theorem containing_sortedItems {items : List Value} :
    containing operator threshold kind (Value.sortedItems items) =
      containing operator threshold kind items := by
  induction items with
  | nil => rfl
  | cons item items induction =>
      simp only [Value.sortedItems, containing, kindOf_sorted, matching_sorted, induction]

theorem verdict_sorted : verdict threshold value.sorted = verdict threshold value := by
  simp only [verdict, kindOf_sorted, matching_sorted]

/-- A map has a key or has not, in whatever order it yields its entries. -/
theorem isSome_get?_entries {keys : Keys} {under : keys.Member → Value} {key : String} :
    (Entries.get? key (keys.entries under)).isSome = true ↔ key ∈ keys.names := by
  simp only [Option.isSome_iff_exists, Entries.get?_eq_some_iff (keys.distinct_entries under),
    Keys.mem_entries_iff]
  exact ⟨fun ⟨_, present, _⟩ => present, fun present => ⟨_, present, rfl⟩⟩

variable [Engine] {pattern : Option Pattern}

/-- No operator but `VALUE_EXIST` sees the order in which a map yields its entries. -/
theorem applyKinds_sorted (apart : operator ≠ .valueExist) :
    applyKinds operator feature.sorted kind threshold other pattern =
      applyKinds operator feature kind threshold other pattern := by
  cases operator with
  | valueExist => exact absurd rfl apart
  | greater | atLeast | less | atMost | between => simp only [applyKinds, order_sorted]
  | equal | different => simp only [applyKinds, equality_sorted]
  | before | after => simp only [applyKinds, Value.toMoment_sorted]
  | member | nonmember => simp only [applyKinds, among_sorted]
  | like => simp only [applyKinds, textOf_sorted]
  | contain =>
      cases feature with
      | int | real | bool | date | text | null => rfl
      | array items => exact containing_sortedItems
      | map keys under =>
          exact congrArg (· >>= fun whole => textOf .contain threshold other >>= fun part =>
            .ok (occursIn part.toList whole.toList)) textOf_sorted
  | keyExist =>
      cases feature with
      | int | real | bool | date | text | array | null => rfl
      | map keys under =>
          refine congrArg (textOf .keyExist threshold other >>= ·) (funext fun key => ?_)
          refine congrArg Except.ok (Bool.eq_iff_iff.mpr ?_)
          rw [isSome_get?_entries, isSome_get?_entries]
          exact keys.sorted_perm.mem_iff

theorem applyWith_sorted (apart : operator ≠ .valueExist) :
    applyWith operator feature.sorted threshold pattern =
      applyWith operator feature threshold pattern := by
  simp only [applyWith, kindOf_sorted, applyKinds_sorted apart]

/-! ## `VALUE_EXIST` -/

/-- All entries of a value that settle whether it holds the threshold settle it alike. -/
def Steady (threshold value : Value) : Prop :=
  ∀ first ∈ value.entries, ∀ second ∈ value.entries, Settles threshold first.2 →
    Settles threshold second.2 → verdict threshold first.2 = verdict threshold second.2

instance (threshold value : Value) : Decidable (Steady threshold value) :=
  inferInstanceAs (Decidable (∀ first ∈ value.entries, ∀ second ∈ value.entries, _))

/-- Steady entries are found alike in every order, also if maps in them are ordered otherwise. -/
theorem valueExist_eq_of_alike (alike : left.Alike right) (steady : Steady threshold left) :
    apply .valueExist left threshold = apply .valueExist right threshold := by
  cases left with
  | int | real | bool | date | text | null =>
      cases right <;> cases alike
      rfl
  | array items =>
      cases right with
      | array others => rfl
      | _ => nomatch alike
  | map keys under =>
      cases right with
      | map others values =>
          obtain ⟨last, -, searched⟩ := exists_apply_eq_searchRow threshold
          -- a value and its sorted form say the same of the threshold
          have same : ∀ entries : List (String × Value),
              searchRow (fun entry => verdict threshold entry.2) last entries =
                searchRow (fun entry => verdict threshold entry.2) last
                  (entries.map (Prod.map id Value.sorted)) := by
            intro entries
            simp only [searchRow_map, Prod.map_snd, verdict_sorted]
          rw [searched, searched, same, same (others.entries values)]
          have rearranged := Value.entries_perm_of_alike alike
          refine ((forall_perm_searchRow_eq_iff id).mpr ?_ _ rearranged).symm
          simp only [List.forall_mem_map, Prod.map_snd, verdict_sorted]
          exact steady
      | _ => nomatch alike

/-- The entries of a value are steady exactly if it does not matter to `VALUE_EXIST` in which orders
the maps in it yield theirs. -/
theorem steady_iff :
    Steady threshold value ↔ ∀ other, value.Alike other →
      apply .valueExist other threshold = apply .valueExist value threshold := by
  constructor
  · intro steady other alike
    exact (valueExist_eq_of_alike alike steady).symm
  · intro same
    cases value with
    | int | real | bool | date | text | array | null => nofun
    | map keys under =>
        obtain ⟨table, entries_eq, value_eq⟩ := @Value.exists_ofTable_eq keys under
        rw [← value_eq] at same
        have agree := forall_perm_apply_eq_iff.mp fun others rearranged =>
          same _ (Value.alike_ofTable rearranged).symm
        rw [entries_eq] at agree
        exact agree

/-- Values that differ in the orders of maps compare alike, also with `VALUE_EXIST` if their entries
are steady. -/
theorem applyWith_eq_of_alike (alike : left.Alike right)
    (steady : operator = .valueExist → Steady threshold left) :
    applyWith operator left threshold pattern = applyWith operator right threshold pattern := by
  by_cases searches : operator = .valueExist
  · subst searches
    exact valueExist_eq_of_alike alike (steady rfl)
  · rw [← applyWith_sorted searches, alike, applyWith_sorted searches]

end Comparison
end RiskGraph
