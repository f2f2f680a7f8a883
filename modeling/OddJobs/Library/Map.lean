import Mathlib.Data.List.Perm.Subperm
import Std.Data.ExtTreeMap

/-!
# Keyed tables

Extensional tree maps read through their lookups: what every update does to
every key, and how the updates compose.  Two tables are equal exactly when
they hold the same entries.  The order in which a hash map is walked is carried
apart from its entries, as an arbitrary permutation of the keys.
-/

namespace OddJobs.Library

open Std

structure WalkOrder (K : Type) where
  walk : List K → List K
  perm : ∀ keys, (walk keys).Perm keys

namespace WalkOrder

variable {K : Type}

def byKey : WalkOrder K := ⟨id, fun _ => List.Perm.refl _⟩

theorem mem_walk (order : WalkOrder K) (keys : List K) (key : K) :
    key ∈ order.walk keys ↔ key ∈ keys :=
  (order.perm keys).mem_iff

/-- A search that at most one element answers does not depend on the order. -/
theorem findSome?_perm {R : Type} {search : K → Option R} {left right : List K}
    (permuted : left.Perm right)
    (unique : ∀ first ∈ left, ∀ second ∈ left, (search first).isSome → (search second).isSome →
      first = second) : left.findSome? search = right.findSome? search := by
  cases found : left.findSome? search with
  | none =>
      have missed := List.findSome?_eq_none_iff.mp found
      rw [eq_comm, List.findSome?_eq_none_iff]
      exact fun key member => missed key (permuted.mem_iff.mpr member)
  | some answer =>
      obtain ⟨first, member, answers⟩ := List.exists_of_findSome?_eq_some found
      cases other : right.findSome? search with
      | none =>
          have missed := List.findSome?_eq_none_iff.mp other first (permuted.mem_iff.mp member)
          rw [answers] at missed
          cases missed
      | some another =>
          obtain ⟨second, listed, same⟩ := List.exists_of_findSome?_eq_some other
          have equal := unique first member second (permuted.mem_iff.mpr listed)
            (Option.isSome_of_eq_some answers) (Option.isSome_of_eq_some same)
          rw [← answers, ← same, equal]

end WalkOrder

namespace Table

variable {K V W U : Type} {cmp : K → K → Ordering} [TransCmp cmp]

/-- The key of the first entry, in walking order, whose value passes the test. -/
def findKey? (order : WalkOrder K) (table : ExtTreeMap K V cmp) (test : V → Bool) : Option K :=
  (order.walk table.keys).find? fun key => (table[key]?).any test

/-- A key found by a walk holds a value that passes the test. -/
theorem findKey?_sound {order : WalkOrder K} {table : ExtTreeMap K V cmp} {test : V → Bool}
    {key : K} (found : findKey? order table test = some key) :
    ∃ value, table[key]? = some value ∧ test value = true := by
  have passes := List.find?_some found
  cases lookup : table[key]? with
  | none => rw [lookup] at passes; cases passes
  | some value => rw [lookup] at passes; exact ⟨value, rfl, passes⟩

theorem lookup_empty (key : K) : (∅ : ExtTreeMap K V cmp)[key]? = none :=
  ExtTreeMap.getElem?_empty

theorem contains_eq_isSome (table : ExtTreeMap K V cmp) (key : K) :
    table.contains key = (table[key]?).isSome :=
  ExtTreeMap.contains_eq_isSome_getElem?

variable [LawfulEqCmp cmp]

/-- Where a walk finds no key, no value passes the test. -/
theorem findKey?_none {order : WalkOrder K} {table : ExtTreeMap K V cmp} {test : V → Bool}
    (absent : findKey? order table test = none) (key : K) (value : V)
    (present : table[key]? = some value) : test value = false := by
  have walked : key ∈ order.walk table.keys := by
    rw [order.mem_walk, ExtTreeMap.mem_keys, ExtTreeMap.mem_iff_isSome_getElem?, present]
    rfl
  have fails := List.find?_eq_none.mp absent key walked
  rw [present, Option.any_some, Bool.not_eq_true] at fails
  exact fails

/-- At most one value passes the test. -/
def Single (table : ExtTreeMap K V cmp) (test : V → Bool) : Prop :=
  ∀ (first second : K) (value other : V), table[first]? = some value →
    table[second]? = some other →
    test value = true → test other = true → first = second

theorem Single.of_keys {table : ExtTreeMap K V cmp} {test : V → Bool} (only : K)
    (own : ∀ key ∈ table.keys, (table[key]?).any test = true → key = only) :
    Single table test := by
  have alone : ∀ key value, table[key]? = some value → test value = true → key = only := by
    intro key value present passes
    refine own key ?_ (by rw [present]; exact passes)
    rw [ExtTreeMap.mem_keys, ExtTreeMap.mem_iff_isSome_getElem?, present]
    rfl
  intro first second value other present present' passes passes'
  rw [alone first value present passes, alone second other present' passes']

/-- Where at most one value passes, it does not matter how the table is walked. -/
theorem Single.findKey? {table : ExtTreeMap K V cmp} {test : V → Bool}
    (single : Single table test) (order other : WalkOrder K) :
    findKey? order table test = findKey? other table test := by
  cases found : Table.findKey? order table test with
  | some key =>
      obtain ⟨value, present, passes⟩ := findKey?_sound found
      cases found' : Table.findKey? other table test with
      | some key' =>
          obtain ⟨value', present', passes'⟩ := findKey?_sound found'
          rw [single key key' value value' present present' passes passes']
      | none =>
          rw [findKey?_none found' key value present] at passes
          cases passes
  | none =>
      cases found' : Table.findKey? other table test with
      | some key' =>
          obtain ⟨value', present', passes'⟩ := findKey?_sound found'
          rw [findKey?_none found key' value' present'] at passes'
          cases passes'
      | none => rfl

theorem ext {left right : ExtTreeMap K V cmp} (lookups : ∀ key : K, left[key]? = right[key]?) :
    left = right :=
  ExtTreeMap.ext_getElem? fun {key} => lookups key

theorem lookup_map (table : ExtTreeMap K V cmp) (update : K → V → W) (key : K) :
    (table.map update)[key]? = (table[key]?).map (update key) :=
  ExtTreeMap.getElem?_map

theorem lookup_filter (table : ExtTreeMap K V cmp) (keep : K → V → Bool) (key : K) :
    (table.filter keep)[key]? = (table[key]?).filter (keep key) :=
  ExtTreeMap.getElem?_filter'

/-- The keys are decided by which lookups succeed. -/
theorem keys_congr {left : ExtTreeMap K V cmp} {right : ExtTreeMap K W cmp}
    (domain : ∀ key : K, (left[key]?).isSome = (right[key]?).isSome) : left.keys = right.keys := by
  have same : (left.map fun _ _ => ()) = right.map fun _ _ => () := by
    apply ext
    intro key
    have present := domain key
    rw [lookup_map, lookup_map]
    cases leftLookup : left[key]? <;> cases rightLookup : right[key]? <;>
      simp_all
  have keys := congrArg ExtTreeMap.keys same
  rwa [ExtTreeMap.keys_map, ExtTreeMap.keys_map] at keys

/-- A walk is decided by the keys and by the test on their values. -/
theorem findKey?_congr {order : WalkOrder K} {left : ExtTreeMap K V cmp}
    {right : ExtTreeMap K W cmp} {testLeft : V → Bool} {testRight : W → Bool}
    (domain : ∀ key : K, (left[key]?).isSome = (right[key]?).isSome)
    (agree : ∀ key : K, (left[key]?).any testLeft = (right[key]?).any testRight) :
    findKey? order left testLeft = findKey? order right testRight := by
  have tests : (fun key : K => (left[key]?).any testLeft) =
      fun key : K => (right[key]?).any testRight :=
    funext agree
  rw [findKey?, findKey?, keys_congr domain, tests]

section Lookup

variable [DecidableEq K] (table : ExtTreeMap K V cmp) (key other : K)

theorem lookup_insert (value : V) :
    (table.insert key value)[other]? = if key = other then some value else table[other]? := by
  simp [ExtTreeMap.getElem?_insert]

theorem lookup_insertIfNew (value : V) :
    (table.insertIfNew key value)[other]? =
      if key = other then some ((table[key]?).getD value) else table[other]? := by
  rw [ExtTreeMap.getElem?_insertIfNew]
  by_cases same : key = other
  · subst same
    cases lookup : table[key]? with
    | none =>
        have absent : key ∉ table := fun member => by
          rw [ExtTreeMap.mem_iff_isSome_getElem?, lookup] at member
          cases member
        simp [absent]
    | some stored =>
        have present : key ∈ table := by
          rw [ExtTreeMap.mem_iff_isSome_getElem?, lookup]
          rfl
        simp [present]
  · simp [same]

theorem lookup_erase :
    (table.erase key)[other]? = if key = other then none else table[other]? := by
  simp [ExtTreeMap.getElem?_erase]

theorem lookup_modify (update : V → V) :
    (table.modify key update)[other]? =
      if key = other then (table[other]?).map update else table[other]? := by
  rw [ExtTreeMap.getElem?_modify]
  by_cases same : key = other
  · subst same
    simp
  · simp [same]

theorem contains_insert_iff (value : V) :
    (table.insert key value).contains other = true ↔ key = other ∨ table.contains other = true := by
  rw [contains_eq_isSome, contains_eq_isSome, lookup_insert]
  split
  · rename_i same
    exact ⟨fun _ => .inl same, fun _ => rfl⟩
  · rename_i differs
    exact ⟨.inr, fun present => present.resolve_left differs⟩

theorem contains_erase_iff :
    (table.erase key).contains other = true ↔ key ≠ other ∧ table.contains other = true := by
  rw [contains_eq_isSome, contains_eq_isSome, lookup_erase]
  split
  · rename_i same
    exact ⟨(fun absent => nomatch absent), fun kept => absurd same kept.1⟩
  · rename_i differs
    exact ⟨fun present => ⟨differs, present⟩, fun kept => kept.2⟩

end Lookup

/-- Distinct keys that are all present are no more than there are entries. -/
theorem length_le_size (table : ExtTreeMap K V cmp) {keys : List K} (distinct : keys.Nodup)
    (present : ∀ key ∈ keys, table.contains key = true) : keys.length ≤ table.size := by
  have within : keys ⊆ table.keys := fun key member =>
    ExtTreeMap.mem_keys.mpr (ExtTreeMap.contains_iff_mem.mp (present key member))
  rw [← ExtTreeMap.length_keys]
  exact (List.subperm_of_subset distinct within).length_le

section Fill

variable [DecidableEq K]

/-- The keys of a table into which a list has been put. -/
theorem contains_foldl_insert {A : Type} (entries : List A) (key : A → K) (value : V)
    (table : ExtTreeMap K V cmp) (other : K) :
    (entries.foldl (fun table entry => table.insert (key entry) value) table).contains other = true ↔
      (∃ entry ∈ entries, key entry = other) ∨ table.contains other = true := by
  induction entries generalizing table with
  | nil => simp
  | cons entry rest ih =>
      rw [List.foldl_cons, ih, contains_eq_isSome, lookup_insert]
      constructor
      · rintro (⟨later, member, rfl⟩ | present)
        · exact .inl ⟨later, List.mem_cons_of_mem entry member, rfl⟩
        · split at present
          · exact .inl ⟨entry, List.mem_cons_self, ‹_›⟩
          · rw [contains_eq_isSome]
            exact .inr present
      · rintro (⟨found, member, rfl⟩ | present)
        · rcases List.mem_cons.mp member with rfl | later
          · rw [if_pos rfl]
            exact .inr rfl
          · exact .inl ⟨found, later, rfl⟩
        · rw [contains_eq_isSome] at present
          right
          split
          · rfl
          · exact present

theorem contains_foldl_entries {entries : List (K × V)} {table : ExtTreeMap K V cmp} {key : K} :
    (entries.foldl (fun table entry => table.insert entry.1 entry.2) table).contains key = true ↔
      key ∈ entries.map Prod.fst ∨ table.contains key = true := by
  induction entries generalizing table with
  | nil => simp
  | cons entry rest ih =>
      rw [List.foldl_cons, ih, contains_insert_iff, List.map_cons, List.mem_cons, ← or_assoc,
        or_comm (b := entry.1 = key), eq_comm]

/-- A table into which entries with other keys have been put. -/
theorem lookup_foldl_entries_of_notMem {entries : List (K × V)} {table : ExtTreeMap K V cmp}
    {key : K} (absent : key ∉ entries.map Prod.fst) :
    (entries.foldl (fun table entry => table.insert entry.1 entry.2) table)[key]? =
      table[key]? := by
  induction entries generalizing table with
  | nil => rfl
  | cons entry rest ih =>
      rw [List.map_cons, List.mem_cons, not_or] at absent
      obtain ⟨other, later⟩ := absent
      rw [List.foldl_cons, ih later, lookup_insert, if_neg (Ne.symm other)]

/-- A table into which entries with different keys have been put. -/
theorem lookup_foldl_entries {entries : List (K × V)} (distinct : (entries.map Prod.fst).Nodup)
    (table : ExtTreeMap K V cmp) {key : K} {value : V} (member : (key, value) ∈ entries) :
    (entries.foldl (fun table entry => table.insert entry.1 entry.2) table)[key]? = some value := by
  induction entries generalizing table with
  | nil => cases member
  | cons entry rest ih =>
      obtain ⟨fresh, later⟩ := List.nodup_cons.mp distinct
      rcases List.mem_cons.mp member with rfl | member
      · rw [List.foldl_cons, lookup_foldl_entries_of_notMem fresh, lookup_insert, if_pos rfl]
      · exact ih later _ member

/-- A table from which the keys of a list have been erased. -/
theorem lookup_foldl_erase (keys : List K) (table : ExtTreeMap K V cmp) (other : K) :
    (keys.foldl (fun table key => table.erase key) table)[other]? =
      if other ∈ keys then none else table[other]? := by
  induction keys generalizing table with
  | nil => simp
  | cons key rest ih =>
      rw [List.foldl_cons, ih, lookup_erase]
      by_cases later : other ∈ rest
      · rw [if_pos later, if_pos (List.mem_cons_of_mem key later)]
      · by_cases same : key = other
        · rw [if_neg later, if_pos same, if_pos (List.mem_cons.mpr (.inl same.symm))]
        · rw [if_neg later, if_neg same, if_neg]
          intro member
          rcases List.mem_cons.mp member with found | found
          · exact same found.symm
          · exact later found

/-- A table into which entries have been put under other keys: the last one counts. -/
theorem lookup_foldl_rekey (rekey : K → K) (entries : List (K × V)) (table : ExtTreeMap K V cmp)
    (other : K) :
    (entries.foldl (fun table entry => table.insert (rekey entry.1) entry.2) table)[other]? =
      ((entries.reverse.find? fun entry => decide (rekey entry.1 = other)).map Prod.snd).or
        table[other]? := by
  induction entries generalizing table with
  | nil => simp
  | cons entry rest ih =>
      rw [List.foldl_cons, ih, lookup_insert, List.reverse_cons, List.find?_append]
      cases List.find? (fun entry => decide (rekey entry.1 = other)) rest.reverse with
      | some found => rfl
      | none => by_cases same : rekey entry.1 = other <;> simp [same]

/-- A table into which the keys of a list have been put that have a value. -/
theorem lookup_foldl_insert (view : K → Option V) (keys : List K) (table : ExtTreeMap K V cmp)
    (other : K) :
    (keys.foldl (fun table key =>
      match view key with
      | some value => table.insert key value
      | none => table) table)[other]? =
      if other ∈ keys then (view other).or table[other]? else table[other]? := by
  induction keys generalizing table with
  | nil => simp
  | cons key rest ih =>
      rw [List.foldl_cons, ih]
      cases viewed : view key with
      | none =>
          rcases Decidable.em (other = key) with rfl | differs
          · simp [viewed]
          · simp [differs]
      | some value =>
          rcases Decidable.em (other = key) with rfl | differs
          · simp [viewed]
          · simp [differs, lookup_insert, Ne.symm differs]

end Fill

section Compose

variable (table : ExtTreeMap K V cmp)

theorem modify_modify (key : K) (first second : V → V) :
    (table.modify key first).modify key second = table.modify key (second ∘ first) := by
  classical
  apply ext
  intro other
  simp only [lookup_modify]
  split <;> simp

/-- An update is decided by what it does to the stored value. -/
theorem modify_congr (key : K) {first second : V → V}
    (agree : ∀ value, table[key]? = some value → first value = second value) :
    table.modify key first = table.modify key second := by
  classical
  apply ext
  intro other
  simp only [lookup_modify]
  by_cases same : key = other
  · subst same
    simp only [↓reduceIte]
    exact Option.map_congr agree
  · simp only [same, ↓reduceIte]

/-- Updating an entry to what it already is changes nothing. -/
theorem modify_id (key : K) {update : V → V}
    (fixed : ∀ value, table[key]? = some value → update value = value) :
    table.modify key update = table := by
  classical
  rw [modify_congr table key fixed]
  apply ext
  intro other
  simp only [lookup_modify]
  split <;> simp

/-- Repeating an update whose first application absorbs the second. -/
theorem modify_twice (key : K) (first second : V → V)
    (absorbs : ∀ value, second (first value) = first value) :
    (table.modify key first).modify key second = table.modify key first := by
  rw [modify_modify]
  exact modify_congr table key fun value _ => absorbs value

/-- An update that keeps the test of every value keeps the walk. -/
theorem findKey?_modify (order : WalkOrder K) (key : K) (update : V → V) (test : V → Bool)
    (keeps : ∀ value, test (update value) = test value) :
    findKey? order (table.modify key update) test = findKey? order table test := by
  classical
  apply findKey?_congr
  · intro other
    rw [lookup_modify]
    split <;> simp
  · intro other
    rw [lookup_modify]
    split
    · cases table[other]? with
      | none => rfl
      | some value => exact keeps value
    · rfl

theorem insert_insert (key : K) (first second : V) :
    (table.insert key first).insert key second = table.insert key second := by
  classical
  apply ext
  intro other
  simp only [lookup_insert]
  split <;> rfl

/-- Entries under different keys may be made in either order. -/
theorem insert_comm {key other : K} (table : ExtTreeMap K V cmp) (different : key ≠ other)
    (first second : V) :
    (table.insert key first).insert other second = (table.insert other second).insert key first := by
  classical
  refine ext fun asked => ?_
  simp only [lookup_insert]
  split
  · rename_i same
    rw [if_neg fun asked => different (asked.trans same.symm)]
  · rfl

theorem insertIfNew_twice (key : K) (first second : V) :
    (table.insertIfNew key first).insertIfNew key second = table.insertIfNew key first := by
  classical
  apply ext
  intro other
  simp only [lookup_insertIfNew]
  split <;> simp

theorem erase_erase (key : K) : (table.erase key).erase key = table.erase key := by
  classical
  apply ext
  intro other
  simp only [lookup_erase]
  split <;> rfl

theorem filter_filter (keep : K → V → Bool) :
    (table.filter keep).filter keep = table.filter keep := by
  apply ext
  intro key
  rw [lookup_filter, lookup_filter, Option.filter_filter]
  simp

theorem map_map (first : K → V → W) (second : K → W → U) :
    (table.map first).map second = table.map fun key value => second key (first key value) := by
  apply ext
  intro key
  simp only [lookup_map, Option.map_map]
  rfl

theorem map_congr {first second : K → V → W}
    (agree : ∀ key value, table[key]? = some value → first key value = second key value) :
    table.map first = table.map second := by
  apply ext
  intro key
  simp only [lookup_map]
  exact Option.map_congr fun value lookup => agree key value lookup

/-- Repeating an update of every entry whose first application absorbs the second. -/
theorem map_twice (first second : K → V → V)
    (absorbs : ∀ key value, second key (first key value) = first key value) :
    (table.map first).map second = table.map first := by
  rw [map_map]
  exact map_congr table fun key value _ => absorbs key value

theorem insertMany_twice (entries : List (K × V)) :
    (table.insertMany entries).insertMany entries = table.insertMany entries := by
  classical
  apply ext
  intro key
  rw [ExtTreeMap.getElem?_insertMany_list, ExtTreeMap.getElem?_insertMany_list]
  rw [← Option.or_assoc, Option.or_self]

end Compose

/-! ## Projections

How the values' image under a projection follows the updates of the table. -/

section Project

variable (table : ExtTreeMap K V cmp) (view : V → W)

def project : ExtTreeMap K W cmp := table.map fun _ value => view value

theorem lookup_project (key : K) : (project table view)[key]? = (table[key]?).map view :=
  lookup_map table _ key

/-- Two updates of one entry that a view cannot tell apart. -/
theorem project_modify_congr (key : K) {first second : V → V}
    (agree : ∀ value, table[key]? = some value → view (first value) = view (second value)) :
    project (table.modify key first) view = project (table.modify key second) view := by
  classical
  apply ext
  intro other
  simp only [lookup_project, lookup_modify]
  by_cases same : key = other
  · subst same
    simp only [↓reduceIte, Option.map_map]
    exact Option.map_congr agree
  · simp only [same, ↓reduceIte]

/-- Repeating an update, as far as the view can tell. -/
theorem project_modify_twice (key : K) (first second : V → V)
    (absorbs : ∀ value, view (second (first value)) = view (first value)) :
    project ((table.modify key first).modify key second) view =
      project (table.modify key first) view := by
  rw [modify_modify]
  exact project_modify_congr table view key fun value _ => absorbs value

theorem project_insert (key : K) (value : V) :
    project (table.insert key value) view =
      (project table view).insert key (view value) := by
  classical
  apply ext
  intro other
  simp only [lookup_project, lookup_insert]
  split <;> rfl

end Project

end Table

end OddJobs.Library
