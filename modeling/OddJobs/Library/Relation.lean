import Mathlib.Data.Option.Basic
import OddJobs.Library.Map

/-!
# Related tables

Two tables with the same keys and related values.  Updates that respect the
relation on values respect it on tables.
-/

namespace OddJobs.Library.Table

open Std

variable {K V W : Type} {cmp : K → K → Ordering} [TransCmp cmp]

/-- Two lookups fail together, or find related values. -/
def RelatedAt (rel : V → W → Prop) : Option V → Option W → Prop
  | none, none => True
  | some left, some right => rel left right
  | _, _ => False

/-- Two tables hold related values at the same keys. -/
def Related (rel : V → W → Prop) (left : ExtTreeMap K V cmp) (right : ExtTreeMap K W cmp) : Prop :=
  ∀ key : K, RelatedAt rel left[key]? right[key]?

theorem RelatedAt.isSome_eq {rel : V → W → Prop} {left : Option V} {right : Option W}
    (related : RelatedAt rel left right) : left.isSome = right.isSome := by
  cases left with
  | none => cases right with
    | none => rfl
    | some value => cases related
  | some value => cases right with
    | none => cases related
    | some other => rfl

theorem RelatedAt.cases_on {rel : V → W → Prop} {left : Option V} {right : Option W}
    (related : RelatedAt rel left right) :
    (left = none ∧ right = none) ∨
      ∃ value other, left = some value ∧ right = some other ∧ rel value other := by
  cases left with
  | none => cases right with
    | none => exact Or.inl ⟨rfl, rfl⟩
    | some value => cases related
  | some value => cases right with
    | none => cases related
    | some other => exact Or.inr ⟨value, other, rfl, rfl, related⟩

theorem RelatedAt.map {rel : V → W → Prop} {left : Option V} {right : Option W}
    (related : RelatedAt rel left right) {V' W' : Type} {rel' : V' → W' → Prop} {first : V → V'}
    {second : W → W'} (respects : ∀ value other, rel value other → rel' (first value) (second other)) :
    RelatedAt rel' (left.map first) (right.map second) := by
  rcases related.cases_on with ⟨rfl, rfl⟩ | ⟨value, other, rfl, rfl, held⟩
  · trivial
  · exact respects value other held

theorem related_refl {rel : V → V → Prop} (refl : ∀ value, rel value value)
    (table : ExtTreeMap K V cmp) : Related rel table table := by
  intro key
  cases table[key]? with
  | none => trivial
  | some value => exact refl value

theorem Related.trans {U : Type} {first : V → W → Prop} {second : W → U → Prop}
    {both : V → U → Prop} {left : ExtTreeMap K V cmp} {middle : ExtTreeMap K W cmp}
    {right : ExtTreeMap K U cmp} (toMiddle : Related first left middle)
    (fromMiddle : Related second middle right)
    (joins : ∀ value other last, first value other → second other last → both value last) :
    Related both left right := by
  intro key
  rcases (toMiddle key).cases_on with ⟨none, none'⟩ | ⟨value, other, found, found', held⟩
  · have end_ := fromMiddle key
    rw [none'] at end_
    rcases end_.cases_on with ⟨_, none''⟩ | ⟨_, _, impossible, _⟩
    · rw [none, none'']
      trivial
    · cases impossible
  · have end_ := fromMiddle key
    rw [found'] at end_
    rcases end_.cases_on with ⟨impossible, _⟩ | ⟨_, last, same, found'', held'⟩
    · cases impossible
    · cases same
      rw [found, found'']
      exact joins value other last held held'

variable [LawfulEqCmp cmp] [DecidableEq K] {rel : V → W → Prop} {left : ExtTreeMap K V cmp}
  {right : ExtTreeMap K W cmp}

theorem Related.insert (related : Related rel left right) (key : K) {value : V} {other : W}
    (held : rel value other) : Related rel (left.insert key value) (right.insert key other) := by
  intro entry
  rw [lookup_insert, lookup_insert]
  by_cases same : key = entry
  · simp only [same, ↓reduceIte]
    exact held
  · simp only [same, ↓reduceIte]
    exact related entry

theorem Related.insertIfNew (related : Related rel left right) (key : K) {value : V} {other : W}
    (held : rel value other) :
    Related rel (left.insertIfNew key value) (right.insertIfNew key other) := by
  intro entry
  rw [lookup_insertIfNew, lookup_insertIfNew]
  by_cases same : key = entry
  · simp only [same, ↓reduceIte]
    rcases (related entry).cases_on with ⟨none, none'⟩ | ⟨stored, stored', found, found', kept⟩
    · rw [none, none']
      exact held
    · rw [found, found']
      exact kept
  · simp only [same, ↓reduceIte]
    exact related entry

theorem Related.erase (related : Related rel left right) (key : K) :
    Related rel (left.erase key) (right.erase key) := by
  intro entry
  rw [lookup_erase, lookup_erase]
  by_cases same : key = entry
  · simp only [same, ↓reduceIte]
    trivial
  · simp only [same, ↓reduceIte]
    exact related entry

theorem Related.modify (related : Related rel left right) (key : K) {first : V → V} {second : W → W}
    (respects : ∀ value other, rel value other → rel (first value) (second other)) :
    Related rel (left.modify key first) (right.modify key second) := by
  intro entry
  rw [lookup_modify, lookup_modify]
  by_cases same : key = entry
  · simp only [same, ↓reduceIte]
    exact (related entry).map respects
  · simp only [same, ↓reduceIte]
    exact related entry

/-- An update on the left alone. -/
theorem Related.modify_left (related : Related rel left right) (key : K) {first : V → V}
    (respects : ∀ value other, rel value other → rel (first value) other) :
    Related rel (left.modify key first) right := by
  intro entry
  rw [lookup_modify]
  by_cases same : key = entry
  · simp only [same, ↓reduceIte]
    rcases (related entry).cases_on with ⟨none, none'⟩ | ⟨value, other, found, found', held⟩
    · rw [none, none']
      trivial
    · rw [found, found']
      exact respects value other held
  · simp only [same, ↓reduceIte]
    exact related entry

omit [DecidableEq K] in
theorem Related.map (related : Related rel left right) {first : K → V → V} {second : K → W → W}
    (respects : ∀ key value other, rel value other → rel (first key value) (second key other)) :
    Related rel (left.map first) (right.map second) := by
  intro entry
  rw [lookup_map, lookup_map]
  exact (related entry).map (respects entry)

omit [DecidableEq K] in
theorem Related.filter (related : Related rel left right) {first : K → V → Bool}
    {second : K → W → Bool}
    (agree : ∀ key value other, rel value other → first key value = second key other) :
    Related rel (left.filter first) (right.filter second) := by
  intro entry
  rw [lookup_filter, lookup_filter]
  rcases (related entry).cases_on with ⟨none, none'⟩ | ⟨value, other, found, found', held⟩
  · rw [none, none']
    trivial
  · rw [found, found', Option.filter_some, Option.filter_some, agree entry value other held]
    cases second entry other with
    | true => exact held
    | false => trivial

omit [DecidableEq K] in
/-- A walk finds the same key in both tables. -/
theorem Related.findKey? (related : Related rel left right) (order : WalkOrder K)
    {first : V → Bool} {second : W → Bool}
    (agree : ∀ value other, rel value other → first value = second other) :
    Table.findKey? order left first = Table.findKey? order right second := by
  refine findKey?_congr (fun key => (related key).isSome_eq) fun key => ?_
  rcases (related key).cases_on with ⟨none, none'⟩ | ⟨value, other, found, found', held⟩
  · rw [none, none']
    rfl
  · rw [found, found']
    exact agree value other held

omit [LawfulEqCmp cmp] [DecidableEq K] in
theorem Related.contains_eq (related : Related rel left right) (key : K) :
    left.contains key = right.contains key := by
  rw [contains_eq_isSome, contains_eq_isSome]
  exact (related key).isSome_eq

end OddJobs.Library.Table

/-! ## Values with the same view -/

namespace OddJobs.Library

variable {V β : Type} (view : V → V)

/-- Updates that the view sees as one keep values with the same view together. -/
theorem update_of_view (image : V → V) {first second : V → V}
    (onFirst : ∀ value, view (first value) = image (view value))
    (onSecond : ∀ value, view (second value) = image (view value)) {value other : V}
    (held : view value = view other) : view (first value) = view (second other) := by
  rw [onFirst, onSecond, held]

/-- The same update keeps values with the same view together. -/
theorem same_update (update : V → V) (commutes : ∀ value, view (update value) = update (view value))
    {value other : V} (held : view value = view other) : view (update value) = view (update other) :=
  update_of_view view update commutes commutes held

/-- What the view keeps is the same in values with the same view. -/
theorem field_of_view (field : V → β) (kept : ∀ value, field (view value) = field value)
    {value other : V} (held : view value = view other) : field value = field other := by
  rw [← kept value, held, kept other]

end OddJobs.Library
