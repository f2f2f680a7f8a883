import Mathlib.Data.List.Infix
import OddJobs.Library.Text

/-!
# Searching a text

The first occurrence of a pattern whose first character occurs in it only once.  Two texts can
be searched one after the other where no occurrence lies across the seam.
-/

namespace OddJobs.Library.Text

/-! ## The first occurrence -/

section After

variable {c d : Char} {pattern tail front left rest text : List Char}

theorem after_self (c : Char) (tail rest : List Char) :
    after (c :: tail) (c :: tail ++ rest) = some rest := by
  have begins : (c :: tail).isPrefixOf (c :: (tail ++ rest)) = true :=
    List.isPrefixOf_iff_prefix.mpr ⟨rest, rfl⟩
  rw [List.cons_append, after, if_pos begins, ← List.cons_append, List.drop_left]

theorem after_cons (other : ¬pattern <+: c :: text) : after pattern (c :: text) =
    after pattern text := by
  rw [after, if_neg fun begins => other (List.isPrefixOf_iff_prefix.mp begins)]

/-- Nothing is found in front of the first character of the pattern. -/
theorem after_skip (free : c ∉ front) (rest : List Char) :
    after (c :: tail) (front ++ rest) = after (c :: tail) rest := by
  induction front with
  | nil => rfl
  | cons a front ih =>
      rw [List.mem_cons, not_or] at free
      obtain ⟨other, free⟩ := free
      rw [List.cons_append, after_cons, ih free]
      intro begins
      exact other (List.cons_prefix_cons.mp begins).1

theorem after_none (free : ¬(c :: tail) <:+: text) : after (c :: tail) text = none := by
  induction text with
  | nil => rfl
  | cons a text ih =>
      rw [after_cons, ih]
      · exact fun inside => free (List.infix_cons inside)
      · exact fun begins => free begins.isInfix

/-- No occurrence lies across a character that the pattern can only begin with. -/
theorem after_break (free : ¬(c :: tail) <:+: left) (once : d ∉ tail) (rest : List Char) :
    after (c :: tail) (left ++ d :: rest) = after (c :: tail) (d :: rest) := by
  induction left with
  | nil => rfl
  | cons a left ih =>
      have free' : ¬(c :: tail) <:+: left := fun inside => free (List.infix_cons inside)
      rw [List.cons_append, after_cons, ih free']
      intro begins
      obtain ⟨rfl, later⟩ := List.cons_prefix_cons.mp begins
      have split : left ++ d :: rest = left ++ [d] ++ rest := (List.append_cons left d rest)
      rw [split] at later
      rcases List.prefix_or_prefix_of_prefix later (List.prefix_append _ rest) with inside | beyond
      · rcases List.prefix_concat_iff.mp inside with whole | inside
        · exact once (whole ▸ List.mem_append_right _ (List.mem_singleton_self d))
        · exact free (List.cons_prefix_cons.mpr ⟨rfl, inside⟩).isInfix
      · exact once (beyond.subset (List.mem_append_right _ (List.mem_singleton_self d)))

/-- What is found first stays first when the text goes on. -/
theorem after_append (inside : pattern <:+: left) :
    ∃ found, after pattern left = some found ∧
      ∀ more, after pattern (left ++ more) = some (found ++ more) := by
  induction left with
  | nil =>
      cases List.eq_nil_of_infix_nil inside
      refine ⟨[], rfl, fun more => ?_⟩
      cases more <;> rfl
  | cons a left ih =>
      by_cases begins : pattern <+: a :: left
      · obtain ⟨found, whole⟩ := begins
        have starts (more : List Char) : pattern.isPrefixOf (a :: (left ++ more)) = true :=
          List.isPrefixOf_iff_prefix.mpr ⟨found ++ more, by
            rw [← List.append_assoc, whole, List.cons_append]⟩
        have first (more : List Char) :
            after pattern (a :: (left ++ more)) = some (found ++ more) := by
          rw [after, if_pos (starts more), ← List.cons_append, ← whole, List.append_assoc,
            List.drop_left]
        refine ⟨found, ?_, first⟩
        have alone := first []
        rwa [List.append_nil, List.append_nil] at alone
      · have later := (List.infix_cons_iff.mp inside).resolve_left begins
        obtain ⟨found, first, goes_on⟩ := ih later
        refine ⟨found, (after_cons begins).trans first, fun more => ?_⟩
        refine (after_cons fun across => begins ?_).trans (goes_on more)
        exact List.prefix_of_prefix_length_le across (List.prefix_append (a :: left) more)
          (Nat.le_succ_of_le later.length_le)

/-- What is found stands behind the pattern. -/
theorem after_eq_some (once : c ∉ tail) :
    after (c :: tail) text = some rest ↔
      ∃ front, text = front ++ (c :: tail ++ rest) ∧ ¬(c :: tail) <:+: front := by
  constructor
  · intro found
    induction text with
    | nil => cases found
    | cons a text ih =>
        by_cases begins : c :: tail <+: a :: text
        · obtain ⟨later, whole⟩ := begins
          rw [← whole, after_self] at found
          cases found
          exact ⟨[], whole.symm,
            fun inside => List.cons_ne_nil c tail (List.eq_nil_of_infix_nil inside)⟩
        · rw [after_cons begins] at found
          obtain ⟨front, rfl, free⟩ := ih found
          refine ⟨a :: front, rfl, fun inside => ?_⟩
          rcases List.infix_cons_iff.mp inside with first | later
          · exact begins (first.trans (List.prefix_append (a :: front) _))
          · exact free later
  · rintro ⟨front, rfl, free⟩
    rw [List.cons_append, after_break free once, ← List.cons_append, after_self]

theorem after_length (found : after (c :: tail) text = some rest) : rest.length < text.length := by
  induction text with
  | nil => cases found
  | cons a text ih =>
      by_cases begins : c :: tail <+: a :: text
      · obtain ⟨later, whole⟩ := begins
        rw [← whole, after_self] at found
        cases found
        rw [← whole, List.length_append, List.length_cons]
        omega
      · rw [after_cons begins] at found
        exact Nat.lt_succ_of_lt (ih found)

theorem after_single (free : c ∉ front) (rest : List Char) :
    after [c] (front ++ c :: rest) = some rest := by
  rw [after_skip free]
  exact after_self c [] rest

theorem after_single_none (free : c ∉ text) : after [c] text = none :=
  after_none fun inside => free ((List.singleton_infix_iff c text).mp inside)

end After

end OddJobs.Library.Text
