import Mathlib.Data.List.Basic

/-!
# Groups between separators

The nonempty groups of a list are what its separators leave.  A reader that goes through the
list once collects the same groups.
-/

namespace OddJobs.Library

variable {α β : Type} (separates : α → Bool)

def groups (items : List α) : List (List α) := (items.splitOnP separates).filter (!·.isEmpty)

structure Grouping (α : Type) where
  closed : List (List α)
  current : List α

namespace Grouping

variable {separates}

def close (grouping : Grouping α) : List (List α) :=
  if grouping.current.isEmpty then grouping.closed else grouping.closed ++ [grouping.current]

/-- A separator closes the open group, and every other element joins it. -/
def step (separates : α → Bool) (grouping : Grouping α) (item : α) : Grouping α :=
  if separates item then ⟨grouping.close, []⟩ else ⟨grouping.closed, grouping.current ++ [item]⟩

/-- Elements that are no separators join the open group. -/
theorem foldl_open (grouping : Grouping α) {items : List α}
    (open_ : ∀ item ∈ items, separates item = false) :
    items.foldl (step separates) grouping = ⟨grouping.closed, grouping.current ++ items⟩ := by
  induction items generalizing grouping with
  | nil =>
      rw [List.append_nil]
      rfl
  | cons item items ih =>
      have joined : step separates grouping item =
          ⟨grouping.closed, grouping.current ++ [item]⟩ :=
        if_neg (Bool.not_eq_true _ ▸ open_ item List.mem_cons_self)
      rw [List.foldl_cons, joined, ih _ fun other member => open_ other
        (List.mem_cons_of_mem item member), List.append_assoc, List.singleton_append]

theorem close_eq (grouping : Grouping α) (open_ : ∀ item ∈ grouping.current, separates item = false) :
    grouping.close = grouping.closed ++ groups separates grouping.current := by
  rw [close, groups, List.splitOnP_eq_singleton open_]
  cases grouping.current with
  | nil => exact (List.append_nil _).symm
  | cons first rest => rfl

/-- Reading element by element gives the groups. -/
theorem foldl_close (grouping : Grouping α)
    (open_ : ∀ item ∈ grouping.current, separates item = false) (items : List α) :
    (items.foldl (step separates) grouping).close =
      grouping.closed ++ groups separates (grouping.current ++ items) := by
  induction items generalizing grouping with
  | nil =>
      rw [List.append_nil]
      exact close_eq grouping open_
  | cons item items ih =>
      rw [List.foldl_cons]
      by_cases separated : separates item = true
      · have stepped : step separates grouping item = ⟨grouping.close, []⟩ := by
          rw [step, if_pos separated]
        rw [stepped, ih _ (fun _ none => absurd none List.not_mem_nil), close_eq grouping open_,
          List.append_assoc, List.nil_append]
        refine congrArg (grouping.closed ++ ·) ?_
        rw [groups, groups, groups,
          List.splitOnP_append_cons_of_forall_mem open_ item separated, List.filter_cons,
          List.splitOnP_eq_singleton open_]
        cases grouping.current with
        | nil => rfl
        | cons first rest => rfl
      · have stepped : step separates grouping item =
            ⟨grouping.closed, grouping.current ++ [item]⟩ := by
          rw [step, if_neg separated]
        rw [stepped, ih]
        · rw [List.append_assoc, List.singleton_append]
        · intro other member
          rcases List.mem_append.mp member with before | last
          · exact open_ other before
          · rw [List.mem_singleton.mp last]
            exact Bool.eq_false_iff.mpr separated

end Grouping

theorem groups_eq_foldl (items : List α) :
    groups separates items = (items.foldl (Grouping.step separates) ⟨[], []⟩).close := by
  rw [Grouping.foldl_close ⟨[], []⟩ (fun _ none => absurd none List.not_mem_nil)]
  rfl

theorem groups_open {items : List α} (open_ : ∀ item ∈ items, separates item = false)
    (nonempty : items ≠ []) : groups separates items = [items] := by
  rw [groups, List.splitOnP_eq_singleton open_]
  cases items with
  | nil => exact absurd rfl nonempty
  | cons first rest => rfl

/-- No element but a separator is lost. -/
theorem flatten_groups (items : List α) :
    (groups separates items).flatten = items.filter (!separates ·) := by
  have reached (grouping : Grouping α) :
      (items.foldl (Grouping.step separates) grouping).close.flatten =
        grouping.closed.flatten ++ grouping.current ++ items.filter (!separates ·) := by
    induction items generalizing grouping with
    | nil =>
        rw [List.foldl_nil, List.filter_nil, List.append_nil, Grouping.close]
        cases grouping.current with
        | nil => exact (List.append_nil _).symm
        | cons first rest =>
            rw [if_neg (by rintro ⟨⟩), List.flatten_append, List.flatten_singleton]
    | cons item items ih =>
        rw [List.foldl_cons, ih]
        by_cases separated : separates item = true
        · rw [Grouping.step, if_pos separated, List.filter_cons, if_neg (by rw [separated]; decide),
            List.append_nil, Grouping.close]
          cases grouping.current with
          | nil =>
              rw [List.append_nil]
              rfl
          | cons first rest =>
              rw [if_neg (by rintro ⟨⟩), List.flatten_append, List.flatten_singleton]
        · rw [Grouping.step, if_neg separated, List.filter_cons,
            if_pos (by rw [Bool.eq_false_iff.mpr separated]; rfl), List.append_assoc,
            List.append_assoc, List.append_assoc, List.singleton_append]
  rw [groups_eq_foldl, reached]
  rfl

end OddJobs.Library
