import Mathlib.Algebra.GroupWithZero.Nat
import OddJobs.Library.Text

/-!
# Patterns in a text

A pattern reads a match at the start of a text and returns it with what
follows.  A text is searched from the left, and all matches are replaced.
-/

namespace OddJobs.Library

abbrev Pattern (M : Type) := List Char → Option (M × List Char)

namespace Pattern

def literal (expected text : List Char) : Option (List Char) :=
  if expected.isPrefixOf text then some (text.drop expected.length) else none

def optional (expected : Char) : List Char → List Char
  | [] => []
  | c :: rest => if c = expected then rest else c :: rest

/-- The white space at the start of a text, which may be none, is left out. -/
def spaces (text : List Char) : List Char := text.dropWhile Text.isWhiteSpace

def someSpaces : List Char → Option (List Char)
  | [] => none
  | c :: rest => if Text.isWhiteSpace c then some (spaces rest) else none

/-- A name: one character that may begin it, then all that may go on. -/
def identifier (begins goesOn : Char → Bool) : Pattern (List Char)
  | [] => none
  | c :: rest =>
      if begins c then some (c :: rest.takeWhile goesOn, rest.dropWhile goesOn) else none

theorem literal_eq_some {expected text rest : List Char} (read : literal expected text = some rest) :
    text = expected ++ rest := by
  unfold literal at read
  split at read
  · cases read
    exact (List.prefix_iff_eq_append.mp (List.isPrefixOf_iff_prefix.mp ‹_›)).symm
  · cases read

theorem identifier_eq_some {begins goesOn : Char → Bool} {text name rest : List Char}
    (read : identifier begins goesOn text = some (name, rest)) : text = name ++ rest := by
  cases text with
  | nil => cases read
  | cons c text =>
      rw [identifier] at read
      split at read
      · cases read
        exact congrArg (c :: ·) List.takeWhile_append_dropWhile.symm
      · cases read

variable {M : Type}

def search (pattern : Pattern M) : List Char → Option M
  | [] => (pattern []).map Prod.fst
  | c :: rest =>
      match pattern (c :: rest) with
      | some (found, _) => some found
      | none => search pattern rest

/-- The text with every match replaced, from the left and without overlaps.
No text is longer than the fuel. -/
def replaceWith (pattern : Pattern M) (render : M → List Char) : Nat → List Char → List Char
  | 0, text => text
  | _ + 1, [] => []
  | fuel + 1, c :: rest =>
      match pattern (c :: rest) with
      | some (found, remaining) => render found ++ replaceWith pattern render fuel remaining
      | none => c :: replaceWith pattern render fuel rest

def replaceAll (pattern : Pattern M) (render : M → List Char) (text : List Char) : List Char :=
  replaceWith pattern render text.length text

def replacedWith (pattern : Pattern M) : Nat → List Char → List M
  | 0, _ => []
  | _ + 1, [] => []
  | fuel + 1, c :: rest =>
      match pattern (c :: rest) with
      | some (found, remaining) => found :: replacedWith pattern fuel remaining
      | none => replacedWith pattern fuel rest

def replaced (pattern : Pattern M) (text : List Char) : List M :=
  replacedWith pattern text.length text

theorem replaceWith_congr {pattern : Pattern M} {render render' : M → List Char} (fuel : Nat)
    (text : List Char)
    (alike : ∀ found ∈ replacedWith pattern fuel text, render found = render' found) :
    replaceWith pattern render fuel text = replaceWith pattern render' fuel text := by
  induction fuel generalizing text with
  | zero => rfl
  | succ fuel ih =>
      cases text with
      | nil => rfl
      | cons c rest =>
          rw [replacedWith] at alike
          rw [replaceWith, replaceWith]
          cases read : pattern (c :: rest) with
          | none =>
              rw [read] at alike
              exact congrArg (c :: ·) (ih rest alike)
          | some pair =>
              rw [read] at alike
              obtain ⟨first, later⟩ := List.forall_mem_cons.mp alike
              exact congrArg₂ (· ++ ·) first (ih pair.2 later)

/-- Only how the matches of the text are rendered matters. -/
theorem replaceAll_congr {pattern : Pattern M} {render render' : M → List Char} {text : List Char}
    (alike : ∀ found ∈ replaced pattern text, render found = render' found) :
    replaceAll pattern render text = replaceAll pattern render' text :=
  replaceWith_congr text.length text alike

/-- What is replaced has been matched somewhere. -/
theorem mem_replaced {pattern : Pattern M} {text : List Char} {found : M}
    (member : found ∈ replaced pattern text) :
    ∃ here remaining, pattern here = some (found, remaining) := by
  have each (fuel : Nat) (text : List Char) (member : found ∈ replacedWith pattern fuel text) :
      ∃ here remaining, pattern here = some (found, remaining) := by
    induction fuel generalizing text with
    | zero => cases member
    | succ fuel ih =>
        cases text with
        | nil => cases member
        | cons c rest =>
            rw [replacedWith] at member
            cases read : pattern (c :: rest) with
            | none =>
                rw [read] at member
                exact ih rest member
            | some pair =>
                rw [read] at member
                rcases List.mem_cons.mp member with rfl | later
                · exact ⟨_, _, read⟩
                · exact ih pair.2 later
  exact each text.length text member

/-- A symbol stands in what the matches are replaced by, and in the text between them, which is
always the same. -/
theorem count_replaceAll (pattern : Pattern M) (text : List Char) (symbol : Char) :
    ∃ between, ∀ render : M → List Char, (replaceAll pattern render text).count symbol =
      between + ((replaced pattern text).map fun found => (render found).count symbol).sum := by
  have each (fuel : Nat) (text : List Char) : ∃ between, ∀ render : M → List Char,
      (replaceWith pattern render fuel text).count symbol = between +
        ((replacedWith pattern fuel text).map fun found => (render found).count symbol).sum := by
    induction fuel generalizing text with
    | zero => exact ⟨text.count symbol, fun _ => rfl⟩
    | succ fuel ih =>
        cases text with
        | nil => exact ⟨0, fun _ => rfl⟩
        | cons c rest =>
            cases read : pattern (c :: rest) with
            | none =>
                obtain ⟨between, counts⟩ := ih rest
                refine ⟨between + if c == symbol then 1 else 0, fun render => ?_⟩
                simp only [replaceWith, replacedWith, read, List.count_cons, counts]
                omega
            | some pair =>
                obtain ⟨between, counts⟩ := ih pair.2
                refine ⟨between, fun render => ?_⟩
                simp only [replaceWith, replacedWith, read, List.count_append, counts,
                  List.map_cons, List.sum_cons]
                omega
  exact each text.length text

end Pattern

end OddJobs.Library
