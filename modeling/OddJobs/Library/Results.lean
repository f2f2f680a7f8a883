import Mathlib.Data.List.Forall2

/-!
# Results

A computation that returns a result or an error, in parts that all return.
-/

namespace OddJobs.Library

variable {ε α β : Type}

theorem ok_bind (value : α) (next : α → Except ε β) : (Except.ok value >>= next) = next value := rfl

/-- Two computations in a row return where both do. -/
theorem bind_eq_ok {first : Except ε α} {next : α → Except ε β} {value : β} :
    (first >>= next) = .ok value ↔ ∃ middle, first = .ok middle ∧ next middle = .ok value := by
  cases first with
  | ok middle =>
      constructor
      · exact fun returned => ⟨middle, rfl, returned⟩
      · rintro ⟨_, same, returned⟩
        cases same
        exact returned
  | error error =>
      constructor
      · intro failed
        cases failed
      · rintro ⟨_, same, _⟩
        cases same

theorem map_eq_ok {first : Except ε α} {use : α → β} {value : β} :
    first.map use = .ok value ↔ ∃ middle, first = .ok middle ∧ use middle = value := by
  cases first with
  | ok middle => simp [Except.map]
  | error error => simp [Except.map]

/-- Computations that go on alike where the first returns are the same. -/
theorem bind_congr_ok {first other : Except ε α} {next continues : α → Except ε β}
    (same : first = other) (agree : ∀ value, other = .ok value → next value = continues value) :
    (first >>= next) = (other >>= continues) := by
  rw [same]
  cases other with
  | error error => rfl
  | ok value => exact agree value rfl

/-- A computation whose errors are turned into others returns where it does itself. -/
theorem mapError_eq_ok {ε' : Type} {turn : ε → ε'} {outcome : Except ε α} {value : α} :
    outcome.mapError turn = .ok value ↔ outcome = .ok value := by
  cases outcome with
  | ok found =>
      constructor
      · rintro ⟨⟩
        rfl
      · rintro ⟨⟩
        rfl
  | error error =>
      constructor
      · rintro ⟨⟩
      · rintro ⟨⟩

/-- A computation for each element of a list returns where all do. -/
theorem mapM_eq_ok {compute : α → Except ε β} {items : List α} {values : List β} :
    items.mapM compute = .ok values ↔
      List.Forall₂ (fun item value => compute item = .ok value) items values := by
  induction items generalizing values with
  | nil =>
      rw [List.mapM_nil, List.forall₂_nil_left_iff]
      constructor
      · intro returned
        cases returned
        rfl
      · rintro rfl
        rfl
  | cons item items ih =>
      rw [List.mapM_cons, bind_eq_ok, List.forall₂_cons_left_iff]
      constructor
      · rintro ⟨value, first, later⟩
        obtain ⟨rest, returned, built⟩ := bind_eq_ok.mp later
        cases built
        exact ⟨value, rest, first, ih.mp returned, rfl⟩
      · rintro ⟨value, rest, first, later, rfl⟩
        exact ⟨value, first, bind_eq_ok.mpr ⟨rest, ih.mpr later, rfl⟩⟩

theorem mapM_congr {compute other : α → Except ε β} {items : List α}
    (agree : ∀ item ∈ items, compute item = other item) :
    items.mapM compute = items.mapM other := by
  induction items with
  | nil => rfl
  | cons item items ih =>
      rw [List.mapM_cons, List.mapM_cons, agree item List.mem_cons_self,
        ih fun later member => agree later (List.mem_cons_of_mem item member)]

def Succeeds (result : Except ε α) : Prop := ∃ value, result = .ok value

@[simp] theorem succeeds_ok (value : α) : Succeeds (.ok value : Except ε α) := ⟨value, rfl⟩

@[simp] theorem not_succeeds_error (error : ε) : ¬Succeeds (.error error : Except ε α) := by
  rintro ⟨value, same⟩
  cases same

theorem succeeds_bind {first : Except ε α} {next : α → Except ε β} :
    Succeeds (first >>= next) ↔
      Succeeds first ∧ ∀ value, first = .ok value → Succeeds (next value) := by
  cases first with
  | error error =>
      refine iff_of_false (not_succeeds_error error) fun both => not_succeeds_error error both.1
  | ok found =>
      constructor
      · exact fun goes => ⟨succeeds_ok found, fun value same => Except.ok.inj same ▸ goes⟩
      · exact fun both => both.2 found rfl

@[simp] theorem succeeds_map {first : Except ε α} {use : α → β} :
    Succeeds (first.map use) ↔ Succeeds first := by
  cases first <;> simp [Except.map]

theorem succeeds_bind_pure {first : Except ε α} {use : α → β} :
    Succeeds (first >>= fun value => pure (use value)) ↔ Succeeds first :=
  succeeds_bind.trans (and_iff_left fun _ _ => succeeds_ok _)

/-- A computation for each element of a list returns if and only if each does. -/
theorem succeeds_mapM {compute : α → Except ε β} {items : List α} :
    Succeeds (items.mapM compute) ↔ ∀ item ∈ items, Succeeds (compute item) := by
  induction items with
  | nil =>
      rw [List.mapM_nil]
      exact iff_of_true (succeeds_ok _) (List.forall_mem_nil _)
  | cons item items ih =>
      rw [List.mapM_cons, List.forall_mem_cons, ← ih, succeeds_bind]
      constructor
      · rintro ⟨⟨value, first⟩, later⟩
        exact ⟨⟨value, first⟩, (succeeds_bind.mp (later value first)).1⟩
      · rintro ⟨first, later⟩
        exact ⟨first, fun value _ => succeeds_bind.mpr ⟨later, fun _ _ => succeeds_ok _⟩⟩

/-- Each value is computed from an element of the list. -/
theorem mem_of_mapM {compute : α → Except ε β} {items : List α} {values : List β} {value : β}
    (returned : items.mapM compute = .ok values) (member : value ∈ values) :
    ∃ item ∈ items, compute item = .ok value := by
  induction mapM_eq_ok.mp returned with
  | nil => exact absurd member List.not_mem_nil
  | cons first _ ih =>
      rcases List.mem_cons.mp member with rfl | later
      · exact ⟨_, List.mem_cons_self, first⟩
      · rename_i rest
        obtain ⟨item, inside, computed⟩ := ih (mapM_eq_ok.mpr rest) later
        exact ⟨item, List.mem_cons_of_mem _ inside, computed⟩

section Folds

variable {S : Type} {step : S → α → Except ε S} {state next : S}

theorem foldlM_cons_of_ok {item : α} (rest : List α) (stepped : step state item = .ok next) :
    (item :: rest).foldlM step state = rest.foldlM step next := by
  rw [List.foldlM_cons, stepped]
  rfl

theorem foldlM_append_of_ok {front : List α} (rest : List α)
    (read : front.foldlM step state = .ok next) :
    (front ++ rest).foldlM step state = rest.foldlM step next := by
  rw [List.foldlM_append, read]
  rfl

theorem foldlM_cons_ok {item : α} {rest : List α} {result : S}
    (read : (item :: rest).foldlM step state = .ok result) :
    ∃ next, step state item = .ok next ∧ rest.foldlM step next = .ok result := by
  rw [List.foldlM_cons] at read
  exact bind_eq_ok.mp read

end Folds

end OddJobs.Library
