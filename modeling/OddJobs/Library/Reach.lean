import Mathlib.Data.Set.Basic
import Mathlib.Logic.Relation

/-!
# Reaching every node

A root reaches every node of a graph exactly where no group of nodes without the root is
closed off against the rest.
-/

namespace OddJobs.Library

open Relation

variable {A : Type} {edge : A → A → Prop} {root : A} {group nodes : Set A}

theorem enters_of_path {target : A} (path : ReflTransGen edge root target) (outside : root ∉ group)
    (inside : target ∈ group) : ∃ source, source ∉ group ∧ ∃ next ∈ group, edge source next := by
  induction path with
  | refl => exact absurd inside outside
  | @tail middle last _ steps ih =>
      by_cases already : middle ∈ group
      · exact ih already
      · exact ⟨middle, already, last, inside, steps⟩

/-- Every node is reached exactly where every group of nodes without the root is entered. -/
theorem reaches_all_iff (within : ∀ source next, edge source next → source ∈ nodes) :
    (∀ target ∈ nodes, ReflTransGen edge root target) ↔
      ∀ group ⊆ nodes, group.Nonempty → root ∉ group →
        ∃ source, source ∉ group ∧ ∃ next ∈ group, edge source next := by
  constructor
  · rintro reached group among ⟨target, inside⟩ outside
    exact enters_of_path (reached target (among inside)) outside inside
  · intro entered target among
    by_contra missed
    -- the nodes that are not reached would be entered from one that is
    obtain ⟨source, outside, next, ⟨-, unreached⟩, steps⟩ :=
      entered {node ∈ nodes | ¬ReflTransGen edge root node} (fun node found => found.1)
        ⟨target, among, missed⟩ fun found => found.2 .refl
    have reached : ReflTransGen edge root source := by
      by_contra missing
      exact outside ⟨within source next steps, missing⟩
    exact unreached (reached.tail steps)

end OddJobs.Library
