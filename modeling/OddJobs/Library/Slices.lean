import Mathlib.Algebra.GroupWithZero.Nat
import OddJobs.Library.Lines
import OddJobs.Library.Text

/-!
# Slices of a text

Positions in a text are counted in bytes.  A text can be cut only where a character begins or
the text ends.
-/

namespace OddJobs.Library.Text

def size (text : List Char) : Nat := (text.map Char.utf8Size).sum

@[simp] theorem size_nil : size [] = 0 := rfl

@[simp] theorem size_cons (c : Char) (text : List Char) :
    size (c :: text) = c.utf8Size + size text := rfl

@[simp] theorem size_append (front back : List Char) :
    size (front ++ back) = size front + size back := by
  simp [size]

theorem size_single {text : List Char} (single : ∀ c ∈ text, c.utf8Size = 1) :
    size text = text.length := by
  induction text with
  | nil => rfl
  | cons c text ih =>
      rw [size_cons, single c List.mem_cons_self,
        ih fun other member => single other (List.mem_cons_of_mem c member), List.length_cons,
        Nat.add_comm]

theorem utf8Size_digit {c : Char} (digit : c.isDigit = true) : c.utf8Size = 1 := by
  have upper := (Char.isDigit_iff_toNat.mp digit).2
  exact Char.utf8Size_eq_one_iff.mpr (UInt32.le_iff_toNat_le.mpr (Nat.le_trans upper (by decide)))

theorem size_digits {digits : List Char} (numeric : ∀ c ∈ digits, c.isDigit = true) :
    size digits = digits.length :=
  size_single fun c member => utf8Size_digit (numeric c member)

/-- The text before a byte and from there on, if a character begins or the text ends there. -/
def split : Nat → List Char → Option (List Char × List Char)
  | 0, text => some ([], text)
  | _ + 1, [] => none
  | position + 1, c :: rest =>
      if c.utf8Size ≤ position + 1 then
        (split (position + 1 - c.utf8Size) rest).map fun (front, back) => (c :: front, back)
      else none
termination_by structural _ text => text

/-- A character begins, or the text ends, at the byte. -/
def Boundary (position : Nat) (text : List Char) : Prop :=
  ∃ front back, text = front ++ back ∧ size front = position

theorem split_eq_some {position : Nat} {text front back : List Char} :
    split position text = some (front, back) ↔ text = front ++ back ∧ size front = position := by
  induction text generalizing position front with
  | nil =>
      cases position with
      | zero =>
          simp only [split, Option.some.injEq, Prod.mk.injEq, List.nil_eq_append_iff]
          constructor
          · rintro ⟨rfl, rfl⟩
            simp
          · rintro ⟨⟨rfl, rfl⟩, -⟩
            simp
      | succ position =>
          simp only [split, List.nil_eq_append_iff, reduceCtorEq, false_iff, not_and]
          rintro ⟨rfl, -⟩ sized
          cases sized
  | cons c rest ih =>
      have positive := c.utf8Size_pos
      cases position with
      | zero =>
          simp only [split, Option.some.injEq, Prod.mk.injEq]
          constructor
          · rintro ⟨rfl, rfl⟩
            simp
          · rintro ⟨split, sized⟩
            cases front with
            | nil => exact ⟨rfl, split⟩
            | cons first later =>
                have positive := first.utf8Size_pos
                simp only [size_cons] at sized
                omega
      | succ position =>
          rw [split]
          cases front with
          | nil =>
              constructor
              · intro found
                split at found
                · simp at found
                · cases found
              · rintro ⟨-, sized⟩
                cases sized
          | cons first later =>
              constructor
              · intro found
                split at found
                · obtain ⟨⟨front, after⟩, cut, same⟩ := Option.map_eq_some_iff.mp found
                  cases same
                  obtain ⟨rfl, sized⟩ := ih.mp cut
                  refine ⟨rfl, ?_⟩
                  rw [size_cons, sized]
                  omega
                · cases found
              · rintro ⟨is, sized⟩
                cases is
                rw [size_cons] at sized
                rw [if_pos (by omega), ih.mpr ⟨rfl, by omega⟩]
                rfl

theorem split_isSome {position : Nat} {text : List Char} :
    (split position text).isSome ↔ Boundary position text := by
  rw [Option.isSome_iff_exists]
  constructor
  · rintro ⟨⟨front, back⟩, cut⟩
    exact ⟨front, back, split_eq_some.mp cut⟩
  · rintro ⟨front, back, cut⟩
    exact ⟨_, split_eq_some.mpr cut⟩

theorem size_eq_zero {text : List Char} : size text = 0 ↔ text = [] := by
  cases text with
  | nil => simp
  | cons c rest =>
      have positive := c.utf8Size_pos
      simp only [size_cons, reduceCtorEq, iff_false]
      omega

/-- Boundaries behind a first part are those of the second. -/
theorem boundary_append {front back : List Char} {position : Nat} :
    Boundary (size front + position) (front ++ back) ↔ Boundary position back := by
  constructor
  · rintro ⟨before, after, split, sized⟩
    rcases List.append_eq_append_iff.mp split with ⟨more, rfl, rfl⟩ | ⟨more, rfl, rfl⟩
    · rw [size_append, Nat.add_left_cancel_iff] at sized
      exact ⟨more, after, rfl, sized⟩
    · have none : more = [] := size_eq_zero.mp (by rw [size_append] at sized; omega)
      subst none
      rw [size_append, size_nil] at sized
      exact ⟨[], back, rfl, by rw [size_nil]; omega⟩
  · rintro ⟨middle, later, rfl, rfl⟩
    exact ⟨front ++ middle, later, (List.append_assoc ..).symm, size_append front middle⟩

/-! ## Beginnings -/

/-- A character is known by the bytes it begins with. -/
theorem encode_cons_inj {c d : Char} {rest more : List UInt8}
    (same : String.utf8EncodeChar c ++ rest = String.utf8EncodeChar d ++ more) : c = d := by
  have read : ∀ (c : Char) (rest : List UInt8),
      (String.utf8EncodeChar c ++ rest).toByteArray.utf8DecodeChar? 0 = some c := by
    intro c rest
    rw [List.toByteArray_append]
    exact ByteArray.utf8DecodeChar?_utf8EncodeChar_append
  have first := read c rest
  rw [same, read d more] at first
  exact (Option.some.inj first).symm

/-- A text whose bytes begin another begins it. -/
theorem prefix_of_encode {front text : List Char} {more : List UInt8}
    (begins : encode front ++ more = encode text) : front <+: text := by
  induction front generalizing text with
  | nil => exact List.nil_prefix
  | cons c rest ih =>
      cases text with
      | nil => exact absurd (List.append_eq_nil_iff.mp begins).1 (encode_ne_nil (by simp))
      | cons d later =>
          simp only [encode, List.flatMap_cons, List.append_assoc] at begins
          have same := encode_cons_inj begins
          subst same
          exact (List.cons_prefix_cons).mpr ⟨rfl, ih (List.append_cancel_left begins)⟩

/-- The lines of a text are encoded one by one. -/
theorem lines_encode (text : List Char) :
    Lines.lines 10 (encode text) = (Lines.lines '\n' text).map encode := by
  induction text with
  | nil => rfl
  | cons c rest ih =>
      have bytes : encode (c :: rest) = String.utf8EncodeChar c ++ encode rest := rfl
      rw [bytes]
      by_cases ends : c = '\n'
      · subst ends
        have line : String.utf8EncodeChar '\n' = [10] := encode_newline
        rw [line, List.singleton_append, Lines.lines, if_pos rfl, ih, Lines.lines, if_pos rfl]
        simp [encode, line]
      · rw [Lines.lines_append_of_notMem String.utf8EncodeChar_ne_nil
          (mt newline_mem_utf8EncodeChar.mp ends), ih]
        cases found : Lines.lines '\n' rest <;> simp [Lines.lines, ends, found, encode]

def find (pattern : List Char) : List Char → Option Nat
  | [] => if pattern.isEmpty then some 0 else none
  | c :: rest =>
      if pattern.isPrefixOf (c :: rest) then some 0 else (find pattern rest).map (· + c.utf8Size)

def splitWhitespace (text : List Char) : List (List Char) :=
  (text.splitOnP isWhiteSpace).filter (!·.isEmpty)

end OddJobs.Library.Text
