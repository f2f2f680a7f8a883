import OddJobs.Library.Map

/-!
# Properties of every entry of a table

A property of all entries is kept by the operations of tables when the entries
they write have it.
-/

namespace OddJobs.Library.Table

open Std

variable {K V W : Type} {cmp : K → K → Ordering} [TransCmp cmp]

def Every (holds : K → V → Prop) (table : ExtTreeMap K V cmp) : Prop :=
  ∀ key value, table[key]? = some value → holds key value

/-- Every entry of the second table comes from a related entry of the first under
the same key. -/
def Within (related : V → V → Prop) (before after : ExtTreeMap K V cmp) : Prop :=
  ∀ (key : K) (value : V),
    after[key]? = some value → ∃ prior, before[key]? = some prior ∧ related prior value

/-- Two tables have the same keys, with related entries. -/
def Pointwise (related : V → V → Prop) (before after : ExtTreeMap K V cmp) : Prop :=
  ∀ key : K, Option.Rel related before[key]? after[key]?

variable {holds : K → V → Prop} {table : ExtTreeMap K V cmp}

theorem every_empty : Every holds (∅ : ExtTreeMap K V cmp) := by
  intro key value found
  rw [lookup_empty] at found
  cases found

theorem Every.mono {weaker : K → V → Prop} (all : Every holds table)
    (implies : ∀ key value, holds key value → weaker key value) : Every weaker table :=
  fun key value found => implies key value (all key value found)

theorem Within.refl {related : V → V → Prop} (reflexive : ∀ value, related value value)
    (table : ExtTreeMap K V cmp) : Within related table table :=
  fun _ value found => ⟨value, found, reflexive value⟩

section Pointwise

variable {related : V → V → Prop} {before after : ExtTreeMap K V cmp}

theorem rel_refl (reflexive : ∀ value, related value value) :
    ∀ entry : Option V, Option.Rel related entry entry
  | none => .none
  | some value => .some (reflexive value)

theorem rel_map {update : V → V} (keeps : ∀ value, related value (update value)) :
    ∀ entry : Option V, Option.Rel related entry (entry.map update)
  | none => .none
  | some value => .some (keeps value)

theorem Pointwise.refl (reflexive : ∀ value, related value value) (table : ExtTreeMap K V cmp) :
    Pointwise related table table :=
  fun key => rel_refl reflexive table[key]?

theorem Pointwise.lookup (pointwise : Pointwise related before after) {key : K} {value : V}
    (found : before[key]? = some value) :
    ∃ next, after[key]? = some next ∧ related value next := by
  have entry := pointwise key
  rw [found] at entry
  generalize after[key]? = later at entry
  cases entry with
  | some relates => exact ⟨_, rfl, relates⟩

/-- What related entries share is the same under every key. -/
theorem Pointwise.map_eq (pointwise : Pointwise related before after) {view : V → W}
    (shared : ∀ value next, related value next → view next = view value) (key : K) :
    (after[key]?).map view = (before[key]?).map view := by
  have entry := pointwise key
  generalize before[key]? = earlier at entry ⊢
  generalize after[key]? = later at entry ⊢
  cases entry with
  | none => rfl
  | some relates => exact congrArg some (shared _ _ relates)

theorem Pointwise.prior (pointwise : Pointwise related before after) {key : K} {value : V}
    (found : after[key]? = some value) :
    ∃ prior, before[key]? = some prior ∧ related prior value := by
  have entry := pointwise key
  rw [found] at entry
  generalize before[key]? = earlier at entry
  cases entry with
  | some relates => exact ⟨_, rfl, relates⟩

theorem Every.pointwise (all : Every holds before) (pointwise : Pointwise related before after)
    (keeps : ∀ key prior value, related prior value → holds key prior → holds key value) :
    Every holds after := by
  intro key value found
  obtain ⟨prior, present, relates⟩ := pointwise.prior found
  exact keeps key prior value relates (all key prior present)

end Pointwise

variable [LawfulEqCmp cmp]

theorem Pointwise.map {related : V → V → Prop} (table : ExtTreeMap K V cmp) {update : V → V}
    (keeps : ∀ value, related value (update value)) :
    Pointwise related table (table.map fun _ value => update value) := by
  intro key
  rw [lookup_map]
  exact rel_map keeps table[key]?

theorem Within.filter {related : V → V → Prop} (reflexive : ∀ value, related value value)
    (table : ExtTreeMap K V cmp) (keep : K → V → Bool) :
    Within related table (table.filter keep) := by
  intro key value found
  rw [lookup_filter] at found
  obtain ⟨present, _⟩ := Option.filter_eq_some_iff.mp found
  exact ⟨value, present, reflexive value⟩

theorem Within.map {related : V → V → Prop} (table : ExtTreeMap K V cmp) {update : K → V → V}
    (keeps : ∀ key value, related value (update key value)) :
    Within related table (table.map update) := by
  intro key value found
  rw [lookup_map] at found
  obtain ⟨prior, present, rfl⟩ := Option.map_eq_some_iff.mp found
  exact ⟨prior, present, keeps key prior⟩

theorem Every.map {holdsMapped : K → W → Prop} (all : Every holds table) (update : K → V → W)
    (keeps : ∀ key value, holds key value → holdsMapped key (update key value)) :
    Every holdsMapped (table.map update) := by
  intro key value found
  rw [lookup_map] at found
  obtain ⟨before, present, rfl⟩ := Option.map_eq_some_iff.mp found
  exact keeps key before (all key before present)

theorem Every.filter (all : Every holds table) (keep : K → V → Bool) :
    Every holds (table.filter keep) := by
  intro key value found
  rw [lookup_filter] at found
  obtain ⟨present, _⟩ := Option.filter_eq_some_iff.mp found
  exact all key value present

theorem kept_of_filter {keep : K → V → Bool} {key : K} {value : V}
    (found : (table.filter keep)[key]? = some value) :
    table[key]? = some value ∧ keep key value = true := by
  rw [lookup_filter] at found
  exact Option.filter_eq_some_iff.mp found

theorem contains_map (table : ExtTreeMap K V cmp) (other : K) (update : K → V → W) :
    (table.map update).contains other = table.contains other := by
  rw [contains_eq_isSome, contains_eq_isSome, lookup_map]
  exact Option.isSome_map

variable [DecidableEq K]

theorem Every.insert (all : Every holds table) {key : K} {value : V} (new : holds key value) :
    Every holds (table.insert key value) := by
  intro other stored found
  rw [lookup_insert] at found
  split at found
  · next same =>
      cases found
      cases same
      exact new
  · exact all other stored found

theorem Every.insertIfNew (all : Every holds table) {key : K} {value : V}
    (new : holds key value) : Every holds (table.insertIfNew key value) := by
  intro other stored found
  rw [lookup_insertIfNew] at found
  split at found
  · next same =>
      cases same
      cases present : table[key]? with
      | none =>
          rw [present] at found
          cases found
          exact new
      | some before =>
          rw [present] at found
          cases found
          exact all key before present
  · exact all other stored found

theorem Every.erase (all : Every holds table) (key : K) : Every holds (table.erase key) := by
  intro other stored found
  rw [lookup_erase] at found
  split at found
  · cases found
  · exact all other stored found

theorem Every.modify (all : Every holds table) (key : K) {update : V → V}
    (keeps : ∀ value, holds key value → holds key (update value)) :
    Every holds (table.modify key update) := by
  intro other stored found
  rw [lookup_modify] at found
  split at found
  · next same =>
      cases same
      obtain ⟨before, present, rfl⟩ := Option.map_eq_some_iff.mp found
      exact keeps before (all key before present)
  · exact all other stored found

theorem Within.modify {related : V → V → Prop} (reflexive : ∀ value, related value value)
    (table : ExtTreeMap K V cmp) (key : K) {update : V → V}
    (keeps : ∀ value, related value (update value)) :
    Within related table (table.modify key update) := by
  intro other value found
  rw [lookup_modify] at found
  split at found
  · obtain ⟨prior, present, rfl⟩ := Option.map_eq_some_iff.mp found
    exact ⟨prior, present, keeps prior⟩
  · exact ⟨value, found, reflexive value⟩

theorem Pointwise.modify {related : V → V → Prop} (reflexive : ∀ value, related value value)
    (table : ExtTreeMap K V cmp) (key : K) {update : V → V}
    (keeps : ∀ value, related value (update value)) :
    Pointwise related table (table.modify key update) := by
  intro other
  rw [lookup_modify]
  split
  · exact rel_map keeps table[other]?
  · exact rel_refl reflexive table[other]?

theorem contains_modify (table : ExtTreeMap K V cmp) (key other : K) (update : V → V) :
    (table.modify key update).contains other = table.contains other := by
  rw [contains_eq_isSome, contains_eq_isSome, lookup_modify]
  split
  · exact Option.isSome_map
  · rfl

end OddJobs.Library.Table
