import Mathlib.Data.List.Induction
import Mathlib.Logic.Function.Basic

/-!
# Backups of corrupt files

A corrupt log or snapshot is moved out of the way.  The backups before it move up by one number, and
the oldest one goes.
-/

namespace OddJobs

def MAX_BAK_FILES : Nat := 3

abbrev Backups := Nat → Option (List UInt8)

namespace Backups

def shift (backups : Backups) (n : Nat) : Backups :=
  match backups n with
  | none => backups
  | some content => Function.update (Function.update backups (n + 1) (some content)) n none

def shiftAll : Nat → Backups → Backups
  | 0, backups => backups
  | n + 1, backups => shiftAll n (backups.shift (n + 1))

/-- `rotate_bak_path`: the path of the first backup is free then. -/
def rotate (backups : Backups) : Backups :=
  shiftAll (MAX_BAK_FILES - 1) (Function.update backups MAX_BAK_FILES none)

def quarantine (backups : Backups) (corrupt : List UInt8) : Backups :=
  Function.update backups.rotate 1 (some corrupt)

theorem shiftAll_apply {n : Nat} {backups : Backups} (free : backups (n + 1) = none) (k : Nat) :
    shiftAll n backups k =
      if k = 1 then none else if 2 ≤ k ∧ k ≤ n + 1 then backups (k - 1) else backups k := by
  induction n generalizing backups with
  | zero =>
      rw [shiftAll]
      split
      · next first => rwa [first]
      · rw [if_neg (by omega)]
  | succ n ih =>
      have moved : ∀ k, backups.shift (n + 1) k =
          if k = n + 1 then none else if k = n + 2 then backups (n + 1) else backups k := by
        intro k
        unfold shift
        cases held : backups (n + 1) with
        | none => grind
        | some content => grind [Function.update_apply]
      rw [shiftAll, ih (by rw [moved, if_pos rfl])]
      simp only [moved]
      grind

theorem quarantine_apply (backups : Backups) (corrupt : List UInt8) (k : Nat) :
    quarantine backups corrupt k = if k = 1 then some corrupt
      else if 2 ≤ k ∧ k ≤ MAX_BAK_FILES then backups (k - 1) else backups k := by
  have shifted := @shiftAll_apply 2 (Function.update backups 3 none) (Function.update_self _ _ _) k
  unfold quarantine rotate MAX_BAK_FILES
  rw [Function.update_apply, shifted, Function.update_apply, Function.update_apply]
  grind

/-- The last corrupt files are kept, the newest one first; the others are gone. -/
theorem quarantine_newest (corrupt : List (List UInt8)) (n : Nat) :
    corrupt.foldl quarantine (fun _ => none) n =
      if 1 ≤ n ∧ n ≤ MAX_BAK_FILES then corrupt.reverse[n - 1]? else none := by
  induction corrupt using List.reverseRecOn generalizing n with
  | nil => simp
  | append_singleton earlier last ih =>
      rw [List.foldl_append, List.foldl_cons, List.foldl_nil, quarantine_apply, ih, ih,
        List.reverse_concat]
      rcases n with _ | _ | n
      · rfl
      · rfl
      · simp only [Nat.add_sub_cancel, List.getElem?_cons_succ]
        grind

end Backups

end OddJobs
