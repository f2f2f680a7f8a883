import Mathlib.Data.List.Perm.Basic
import Mathlib.Data.List.Induction
import Mathlib.Data.List.Nodup
import Mathlib.Data.List.Perm.Subperm
import Mathlib.Data.Option.Basic

/-!
# Evaluation in some order

Keys are evaluated one after the other, and the value of each is put where the later ones see
it.  The order does not matter where each key keeps the value it has at the start, whichever
others are put there first.
-/

namespace OddJobs.Library

variable {S K V : Type}

/-- A state that values are put into and read from, under their keys. -/
structure Store (S K V : Type) where
  put : S → K → V → S
  read : S → K → Option V
  read_put : ∀ state key value, read (put state key value) key = some value
  read_put_of_ne : ∀ {key other : K} (state value), other ≠ key →
    read (put state key value) other = read state other
  put_comm : ∀ {key other : K} (state value otherValue), key ≠ other →
    put (put state key value) other otherValue = put (put state other otherValue) key value

namespace Store

variable (store : Store S K V) (evaluate : K → S → Option V)

def evaluateAll : List K → S → Option S
  | [], state => some state
  | key :: rest, state => do
      let value ← evaluate key state
      evaluateAll rest (store.put state key value)

def putAll (start : S) (keys : List K) (state : S) : S :=
  keys.foldl (fun state key => ((evaluate key start).map (store.put state key)).getD state) state

/-- Each key has a value, and keeps it when values of others are put into the state. -/
def Settled (keys : List K) (state : S) : Prop :=
  ∀ key ∈ keys, (evaluate key state).isSome ∧ ∀ others ⊆ keys, key ∉ others → others.Nodup →
    evaluate key (store.putAll evaluate state others state) = evaluate key state

variable {store evaluate} {keys : List K} {state last : S}

theorem evaluateAll_append (first second : List K) (state : S) :
    store.evaluateAll evaluate (first ++ second) state =
      (store.evaluateAll evaluate first state).bind (store.evaluateAll evaluate second) := by
  induction first generalizing state with
  | nil => rfl
  | cons key rest ih =>
      rw [List.cons_append, evaluateAll, evaluateAll]
      cases evaluate key state with
      | none => rfl
      | some value => exact ih _

theorem evaluateAll_isSome (total : ∀ key state, (evaluate key state).isSome = true)
    (keys : List K) (state : S) : (store.evaluateAll evaluate keys state).isSome = true := by
  induction keys generalizing state with
  | nil => rfl
  | cons key rest ih =>
      obtain ⟨value, valued⟩ := Option.isSome_iff_exists.mp (total key state)
      rw [evaluateAll, valued]
      exact ih _

theorem read_evaluateAll (ran : store.evaluateAll evaluate keys state = some last) {key : K}
    (other : key ∉ keys) : store.read last key = store.read state key := by
  induction keys generalizing state with
  | nil =>
      cases ran
      rfl
  | cons first rest ih =>
      obtain ⟨value, -, later⟩ := Option.bind_eq_some_iff.mp ran
      rw [List.mem_cons, not_or] at other
      rw [ih later other.2, store.read_put_of_ne _ _ other.1]

/-- Two values may be put in either order. -/
theorem putAll_perm {start : S} {first second : List K} (permuted : first.Perm second)
    (state : S) :
    store.putAll evaluate start first state = store.putAll evaluate start second state := by
  refine permuted.foldl_eq' (fun key member other listed state => ?_) state
  by_cases same : key = other
  · rw [same]
  · cases evaluate key start <;> cases evaluate other start <;>
      simp [store.put_comm _ _ _ same]

/-- What settled keys are evaluated to, one after the other. -/
theorem Settled.evaluateAll_eq (settled : store.Settled evaluate keys state) {done rest : List K}
    (permuted : (done ++ rest).Perm keys) (distinct : keys.Nodup) :
    store.evaluateAll evaluate rest (store.putAll evaluate state done state) =
      some (store.putAll evaluate state (done ++ rest) state) := by
  induction rest generalizing done with
  | nil => rw [List.append_nil, evaluateAll]
  | cons key rest ih =>
      have each := permuted.nodup_iff.mpr distinct
      have member := permuted.mem_iff.mp (List.mem_append_right done List.mem_cons_self)
      have fresh : key ∉ done := fun listed =>
        List.disjoint_of_nodup_append each listed List.mem_cons_self
      have within : done ⊆ keys := fun _ listed =>
        permuted.mem_iff.mp (List.mem_append_left _ listed)
      obtain ⟨valued, keeps⟩ := settled key member
      obtain ⟨value, valued⟩ := Option.isSome_iff_exists.mp valued
      have shifted : done ++ key :: rest = done ++ [key] ++ rest := by simp
      rw [shifted] at permuted ⊢
      rw [evaluateAll, keeps done within fresh (List.Nodup.of_append_left each), valued,
        ← ih permuted]
      simp [putAll, valued]

/-- Where every order ends alike, each key has at the end the value it has at the start. -/
theorem read_of_orderFree (distinct : keys.Nodup)
    (alike : ∀ order, order.Perm keys → (store.evaluateAll evaluate order state).map store.read =
      some (store.read last)) {key : K} (member : key ∈ keys) :
    ∃ value, evaluate key state = some value ∧ store.read last key = some value := by
  classical
  have first := alike _ (List.perm_cons_erase member).symm
  obtain ⟨final, ran, reads⟩ := Option.map_eq_some_iff.mp first
  obtain ⟨value, valued, later⟩ := Option.bind_eq_some_iff.mp ran
  refine ⟨value, valued, ?_⟩
  rw [← reads, read_evaluateAll later (List.Nodup.not_mem_erase distinct), store.read_put]

/-- A key has the same value once others have been evaluated. -/
theorem evaluate_of_orderFree (distinct : keys.Nodup)
    (alike : ∀ order, order.Perm keys → (store.evaluateAll evaluate order state).map store.read =
      some (store.read last)) {others rest : List K} {key : K} {middle : S}
    (permuted : (others ++ key :: rest).Perm keys)
    (before : store.evaluateAll evaluate others state = some middle) :
    evaluate key middle = evaluate key state := by
  have each := List.Nodup.of_append_right (permuted.nodup_iff.mpr distinct)
  have member := permuted.mem_iff.mp (List.mem_append_right others List.mem_cons_self)
  obtain ⟨bare, atStart, atEnd⟩ := read_of_orderFree distinct alike member
  obtain ⟨final, ran, reads⟩ := Option.map_eq_some_iff.mp (alike _ permuted)
  rw [evaluateAll_append, before, Option.bind_some] at ran
  obtain ⟨value, valued, later⟩ := Option.bind_eq_some_iff.mp ran
  rw [valued, atStart, ← atEnd, ← reads, read_evaluateAll later (List.nodup_cons.mp each).1,
    store.read_put]

theorem settled_of_orderFree (distinct : keys.Nodup)
    (alike : ∀ order, order.Perm keys → (store.evaluateAll evaluate order state).map store.read =
      some (store.read last)) : store.Settled evaluate keys state := by
  classical
  -- Others that are evaluated first put there the values that they have at the start.
  have prefixed {others rest : List K} (permuted : (others ++ rest).Perm keys) :
      store.evaluateAll evaluate others state =
        some (store.putAll evaluate state others state) := by
    induction others using List.reverseRecOn generalizing rest with
    | nil => rfl
    | append_singleton others key ih =>
        rw [List.append_assoc, List.singleton_append] at permuted
        have member := permuted.mem_iff.mp (List.mem_append_right others List.mem_cons_self)
        obtain ⟨bare, atStart, -⟩ := read_of_orderFree distinct alike member
        have keeps := evaluate_of_orderFree distinct alike permuted (ih permuted)
        rw [evaluateAll_append, ih permuted, Option.bind_some, evaluateAll, keeps, atStart]
        simp [evaluateAll, putAll, atStart]
  intro key member
  obtain ⟨bare, atStart, -⟩ := read_of_orderFree distinct alike member
  refine ⟨Option.isSome_of_eq_some atStart, fun others within fresh each => ?_⟩
  have permuted : (others ++ [key] ++ keys.diff (others ++ [key])).Perm keys := by
    refine List.subperm_append_diff_self_of_count_le fun item _ => List.Subperm.count_le ?_ item
    refine List.subperm_of_subset ?_ (List.append_subset.mpr ⟨within, by simpa using member⟩)
    exact (List.perm_append_singleton key others).nodup_iff.mpr (List.nodup_cons.mpr ⟨fresh, each⟩)
  rw [List.append_assoc] at permuted
  exact evaluate_of_orderFree distinct alike permuted (prefixed permuted)

/-- Settled keys end alike in every order. -/
theorem Settled.evaluateAll_perm (settled : store.Settled evaluate keys state)
    (distinct : keys.Nodup) {order : List K} (permuted : order.Perm keys) :
    store.evaluateAll evaluate order state = some (store.putAll evaluate state keys state) :=
  calc store.evaluateAll evaluate order state
      = some (store.putAll evaluate state order state) :=
        @Settled.evaluateAll_eq S K V store evaluate keys state settled [] order permuted distinct
    _ = some (store.putAll evaluate state keys state) := by rw [putAll_perm permuted]

/-- Where no key changes what it is evaluated to once others are put there, the order does not
matter, also when a key has no value. -/
theorem orderFree_of_stable (distinct : keys.Nodup)
    (stable : ∀ key ∈ keys, ∀ others ⊆ keys, key ∉ others → others.Nodup →
      evaluate key (store.putAll evaluate state others state) = evaluate key state)
    {first second : List K} (ordered : first.Perm keys) (other : second.Perm keys) :
    store.evaluateAll evaluate first state = store.evaluateAll evaluate second state := by
  by_cases valued : ∀ key ∈ keys, (evaluate key state).isSome
  · have settled : store.Settled evaluate keys state := fun key member =>
      ⟨valued key member, stable key member⟩
    rw [settled.evaluateAll_perm distinct ordered, settled.evaluateAll_perm distinct other]
  · obtain ⟨missing, missed⟩ := not_forall.mp valued
    obtain ⟨member, none⟩ := Classical.not_imp.mp missed
    -- the evaluation stops at the first key without a value
    have stops (done rest : List K) (permuted : (done ++ rest).Perm keys)
        (later : missing ∈ rest) :
        store.evaluateAll evaluate rest (store.putAll evaluate state done state) = Option.none := by
      induction rest generalizing done with
      | nil => cases later
      | cons key rest ih =>
          have each := permuted.nodup_iff.mpr distinct
          have within : done ⊆ keys := fun _ listed =>
            permuted.mem_iff.mp (List.mem_append_left _ listed)
          have keeps := stable key (permuted.mem_iff.mp (List.mem_append_right done
            List.mem_cons_self)) done within
            (fun listed => List.disjoint_of_nodup_append each listed List.mem_cons_self)
            (List.Nodup.of_append_left each)
          rw [evaluateAll, keeps]
          cases valued : evaluate key state with
          | none => rfl
          | some value =>
              have inRest : missing ∈ rest := by
                refine (List.mem_cons.mp later).resolve_left fun same => none ?_
                rw [same, valued]
                rfl
              have shifted : done ++ key :: rest = done ++ [key] ++ rest := by simp
              rw [shifted] at permuted
              have stopped := ih (done ++ [key]) permuted inRest
              rwa [show store.putAll evaluate state (done ++ [key]) state =
                store.put (store.putAll evaluate state done state) key value by
                  simp [putAll, valued]] at stopped
    rw [show store.evaluateAll evaluate first state = Option.none from
        stops [] first ordered (ordered.mem_iff.mpr member),
      show store.evaluateAll evaluate second state = Option.none from
        stops [] second other (other.mem_iff.mpr member)]

/-- Where every order ends alike and one has an end, the keys are settled. -/
theorem settled_of_alike {R : Type} {view : S → R}
    (seen : ∀ {first second : S}, view first = view second → store.read first = store.read second)
    (distinct : keys.Nodup) (ran : store.evaluateAll evaluate keys state = some last)
    (alike : ∀ order : List K, order.Perm keys →
      (store.evaluateAll evaluate order state).map view =
        (store.evaluateAll evaluate keys state).map view) : store.Settled evaluate keys state := by
  refine @settled_of_orderFree S K V store evaluate keys state last distinct fun order ordered => ?_
  have same := alike order ordered
  rw [ran, Option.map_some] at same
  obtain ⟨final, ended, sees⟩ := Option.map_eq_some_iff.mp same
  rw [ended, Option.map_some, seen sees]

end Store

end OddJobs.Library
