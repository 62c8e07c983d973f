import Mathlib.Data.List.Forall2
import RiskGraph.Graph.Build

/-!
# Fallible steps

A stage that may fail succeeds exactly when each of its steps does.  The lemmas here say so for the
ways in which steps are put together: one after the other, along a row, and over all places.
-/

namespace RiskGraph

variable {α β ε ε' : Type}

theorem bind_eq_ok {step : Except ε α} {next : α → Except ε β} {result : β} :
    step >>= next = .ok result ↔ ∃ middle, step = .ok middle ∧ next middle = .ok result := by
  cases step with
  | error failure => simp [bind, Except.bind]
  | ok middle => simp [bind, Except.bind]

theorem bind_eq_error {step : Except ε α} {next : α → Except ε β} {failure : ε} :
    step >>= next = .error failure ↔
      step = .error failure ∨ ∃ middle, step = .ok middle ∧ next middle = .error failure := by
  cases step with
  | error other => simp [bind, Except.bind]
  | ok middle => simp [bind, Except.bind]

theorem bind_ok_eq_map {step : Except ε α} {f : α → β} :
    (step >>= fun result => .ok (f result)) = step.map f := by
  cases step <;> rfl

theorem bind_pure_eq_error {step : Except ε α} {f : α → β} {failure : ε} :
    (step >>= fun result => pure (f result)) = .error failure ↔ step = .error failure := by
  cases step <;> simp [bind, Except.bind, pure, Except.pure]

theorem bind_congr_of_ok {step : Except ε α} {next other : α → Except ε β}
    (same : ∀ middle, step = .ok middle → next middle = other middle) :
    step >>= next = step >>= other := by
  cases step with
  | error => rfl
  | ok middle => exact same middle rfl

/-- A step fails if there is no result that it succeeds with. -/
theorem exists_eq_error_iff {step : Except ε α} :
    (∃ failure, step = .error failure) ↔ ∀ result, step ≠ .ok result := by
  cases step <;> simp

theorem mapError_eq_ok {step : Except ε α} {wrap : ε → ε'} {result : α} :
    step.mapError wrap = .ok result ↔ step = .ok result := by
  cases step <;> simp [Except.mapError]

theorem mapError_eq_error {step : Except ε α} {wrap : ε → ε'} {failure : ε'} :
    step.mapError wrap = .error failure ↔ ∃ cause, step = .error cause ∧ wrap cause = failure := by
  cases step <;> simp [Except.mapError]

theorem toOption_eq_some {step : Except ε α} {result : α} :
    step.toOption = some result ↔ step = .ok result := by
  cases step <;> simp [Except.toOption]

theorem toOption_eq_none {step : Except ε α} :
    step.toOption = none ↔ ∃ failure, step = .error failure := by
  cases step <;> simp [Except.toOption]

theorem toOption_bind {step : Except ε α} {next : α → Except ε β} :
    (step >>= next).toOption = step.toOption.bind fun middle => (next middle).toOption := by
  cases step <;> rfl

theorem toOption_mapError {step : Except ε α} {wrap : ε → ε'} :
    (step.mapError wrap).toOption = step.toOption := by
  cases step <;> rfl

/-- A row of steps succeeds exactly when each step does, with the results in the order of the
row. -/
theorem mapM_eq_ok {f : α → Except ε β} {items : List α} {results : List β} :
    items.mapM f = .ok results ↔
      List.Forall₂ (fun item result => f item = .ok result) items results := by
  induction items generalizing results with
  | nil =>
      rw [List.mapM_nil, List.forall₂_nil_left_iff]
      exact ⟨fun equal => (Except.ok.inj equal).symm, fun empty => by rw [empty]; rfl⟩
  | cons item items induction =>
      rw [List.mapM_cons, bind_eq_ok, List.forall₂_cons_left_iff]
      constructor
      · rintro ⟨result, first, rest⟩
        obtain ⟨others, later, equal⟩ := bind_eq_ok.mp rest
        exact ⟨result, others, first, induction.mp later, (Except.ok.inj equal).symm⟩
      · rintro ⟨result, others, first, later, rfl⟩
        exact ⟨result, first, bind_eq_ok.mpr ⟨others, induction.mpr later, rfl⟩⟩

/-- What each step ensures of its result holds along the row. -/
theorem forall_mem_of_mapM_eq_ok {f : α → Except ε β} {items : List α} {results : List β}
    {Ensured : β → Prop} (each : ∀ {item result}, f item = .ok result → Ensured result)
    (succeeded : items.mapM f = .ok results) : ∀ result ∈ results, Ensured result := by
  induction mapM_eq_ok.mp succeeded with
  | nil => exact fun _ => nofun
  | cons first _ induction =>
      exact List.forall_mem_cons.mpr ⟨each first, induction (mapM_eq_ok.mpr ‹_›)⟩

/-- A row of steps each of which can come to one result only comes to the row of these. -/
theorem eq_map_of_mapM_eq_ok {f : α → Except ε β} {g : α → β} {items : List α} {results : List β}
    (each : ∀ {item result}, f item = .ok result → result = g item)
    (succeeded : items.mapM f = .ok results) : results = items.map g := by
  induction mapM_eq_ok.mp succeeded with
  | nil => rfl
  | cons first _ induction =>
      rw [List.map_cons, ← each first, ← induction (mapM_eq_ok.mpr ‹_›)]

theorem exists_mapM_eq_ok {f : α → Except ε β} {items : List α} :
    (∃ results, items.mapM f = .ok results) ↔ ∀ item ∈ items, ∃ result, f item = .ok result := by
  simp only [mapM_eq_ok]
  induction items with
  | nil => simp
  | cons item items induction =>
      simp only [List.forall₂_cons_left_iff, List.forall_mem_cons, ← induction]
      constructor
      · rintro ⟨_, result, others, first, later, rfl⟩
        exact ⟨⟨result, first⟩, others, later⟩
      · rintro ⟨⟨result, first⟩, others, later⟩
        exact ⟨result :: others, result, others, first, later, rfl⟩

/-! ## Families -/

/-- Collecting along a row takes the steps of the row one after the other. -/
theorem map_val_collectList {f : α → Except ε β} {items : List α} :
    (collectList f items).map Subtype.val = items.mapM f := by
  induction items with
  | nil => rfl
  | cons item items induction =>
      rw [List.mapM_cons, ← induction, collectList]
      cases f item with
      | error failure => rfl
      | ok result => cases collectList f items <;> rfl

/-- Collecting a family takes the steps of all places in their order. -/
theorem map_toList_collect {size : Nat} {f : Fin size → Except ε β} :
    (collect f).map Vector.toList = (List.finRange size).mapM f := by
  rw [← map_val_collectList, collect]
  cases collectList f (List.finRange size) <;> rfl

/-- A family of steps succeeds exactly when the step of each place does. -/
theorem collect_eq_ok {size : Nat} {f : Fin size → Except ε β} {results : Vector β size} :
    collect f = .ok results ↔ ∀ place, f place = .ok results[place] := by
  have row : collect f = .ok results ↔
      List.Forall₂ (fun place result => f place = .ok result) (List.finRange size)
        results.toList := by
    rw [← mapM_eq_ok, ← map_toList_collect]
    cases collect f <;> simp [Except.map, Vector.toList_inj]
  rw [row, List.forall₂_iff_get]
  simp [Fin.forall_iff]

theorem exists_collect_eq_ok {size : Nat} {f : Fin size → Except ε β} :
    (∃ results, collect f = .ok results) ↔ ∀ place, ∃ result, f place = .ok result := by
  simp only [collect_eq_ok]
  constructor
  · rintro ⟨results, each⟩ place
    exact ⟨results[place], each place⟩
  · intro each
    choose results each using each
    exact ⟨.ofFn results, by simpa using each⟩

/-! ## First failures -/

/-- The first item of a row that lacks a property. -/
def FirstLacking (Good : α → Prop) (items : List α) (item : α) : Prop :=
  ∃ before after, items = before ++ item :: after ∧ (∀ other ∈ before, Good other) ∧ ¬Good item

section

variable {Good : α → Prop} {items : List α} {first item : α}

theorem FirstLacking.lacks (found : FirstLacking Good items item) : ¬Good item := by
  obtain ⟨before, after, -, -, lacks⟩ := found
  exact lacks

theorem FirstLacking.mem (found : FirstLacking Good items item) : item ∈ items := by
  obtain ⟨before, after, rfl, -, -⟩ := found
  exact List.mem_append_right before List.mem_cons_self

theorem not_firstLacking_nil : ¬FirstLacking Good [] item :=
  fun found => List.not_mem_nil found.mem

theorem firstLacking_cons_iff :
    FirstLacking Good (first :: items) item ↔
      ¬Good first ∧ item = first ∨ Good first ∧ FirstLacking Good items item := by
  constructor
  · rintro ⟨_ | ⟨other, before⟩, after, items_eq, good, lacking⟩
    · cases items_eq
      exact Or.inl ⟨lacking, rfl⟩
    · cases items_eq
      rw [List.forall_mem_cons] at good
      exact Or.inr ⟨good.1, before, after, rfl, good.2, lacking⟩
  · rintro (⟨lacking, rfl⟩ | ⟨good, before, after, rfl, others_good, lacking⟩)
    · exact ⟨[], items, rfl, by simp, lacking⟩
    · exact ⟨first :: before, after, rfl, List.forall_mem_cons.mpr ⟨good, others_good⟩, lacking⟩

/-- A search for an item finds the first one that is not passed over. -/
theorem find?_eq_some_iff_firstLacking {sought : α → Bool} :
    items.find? sought = some item ↔ FirstLacking (fun item => sought item = false) items item := by
  rw [List.find?_eq_some_iff_append]
  constructor
  · rintro ⟨found, before, after, items_eq, passed⟩
    exact ⟨before, after, items_eq, by simpa using passed, by simp [found]⟩
  · rintro ⟨before, after, items_eq, passed, lacking⟩
    exact ⟨by simpa using lacking, before, after, items_eq, by simpa using passed⟩

theorem firstLacking_map_iff {Good : β → Prop} {f : α → β} {result : β} :
    FirstLacking Good (items.map f) result ↔
      ∃ item, FirstLacking (fun item => Good (f item)) items item ∧ f item = result := by
  constructor
  · rintro ⟨before, after, items_eq, good, lacking⟩
    obtain ⟨front, rest, rfl, rfl, rest_eq⟩ := List.map_eq_append_iff.mp items_eq
    obtain ⟨item, back, rfl, rfl, rfl⟩ := List.map_eq_cons_iff.mp rest_eq
    exact ⟨item, ⟨front, back, rfl, List.forall_mem_map.mp good, lacking⟩, rfl⟩
  · rintro ⟨item, ⟨before, after, rfl, good, lacking⟩, rfl⟩
    exact ⟨before.map f, after.map f, by simp, List.forall_mem_map.mpr good, lacking⟩

end

/-- A row of steps fails as its first step that does not succeed. -/
theorem mapM_eq_error {f : α → Except ε β} {items : List α} {failure : ε} :
    items.mapM f = .error failure ↔
      ∃ item, FirstLacking (fun item => ∃ result, f item = .ok result) items item ∧
        f item = .error failure := by
  induction items with
  | nil => exact iff_of_false nofun fun ⟨_, first, _⟩ => not_firstLacking_nil first
  | cons item items induction =>
      rw [List.mapM_cons]
      simp only [firstLacking_cons_iff]
      cases stepped : f item with
      | error other => simp [stepped, bind, Except.bind]
      | ok result =>
          simp only [Except.ok.injEq, exists_eq', not_true, false_and, false_or, true_and,
            ← induction]
          exact bind_pure_eq_error

/-- A row of steps fails only if a step does. -/
theorem exists_of_mapM_eq_error {f : α → Except ε β} {items : List α} {failure : ε}
    (failed : items.mapM f = .error failure) : ∃ item ∈ items, f item = .error failure := by
  obtain ⟨item, first, item_failed⟩ := mapM_eq_error.mp failed
  exact ⟨item, first.mem, item_failed⟩

theorem collect_eq_error {size : Nat} {f : Fin size → Except ε β} {failure : ε} :
    collect f = .error failure ↔
      ∃ place, FirstLacking (fun place => ∃ result, f place = .ok result) (List.finRange size)
        place ∧ f place = .error failure := by
  rw [← mapM_eq_error, ← map_toList_collect]
  cases collect f <;> simp [Except.map]

/-- Steps one after the other, each of which has a requirement, fail with what is said of the first
requirement that is not met. -/
theorem bind_eq_error_iff_firstLacking {ρ : Type} {Met Blamed : ρ → Prop} {requirement : ρ}
    {requirements : List ρ} {step : Except ε α} {next : α → Except ε β} {failure : ε}
    (fails : step = .error failure ↔ Blamed requirement)
    (succeeds : (∃ result, step = .ok result) ↔ Met requirement)
    (later : ∀ result, step = .ok result → (next result = .error failure ↔
      ∃ other, FirstLacking Met requirements other ∧ Blamed other)) :
    step >>= next = .error failure ↔
      ∃ other, FirstLacking Met (requirement :: requirements) other ∧ Blamed other := by
  simp only [firstLacking_cons_iff, ← succeeds]
  cases step with
  | error other =>
      simpa [bind, Except.bind] using fails
  | ok result =>
      simpa [bind, Except.bind] using later result rfl

end RiskGraph
