import Mathlib.Algebra.Ring.Nat
import OddJobs.Library.Text

/-!
# Decimal numbers

Numbers as text: digits, a sign, and zeros that fill a field.
-/

namespace OddJobs.Library.Text

/-! ## Digits -/

theorem isWhiteSpace_digit {c : Char} (digit : c.isDigit = true) : isWhiteSpace c = false := by
  obtain ⟨lower, upper⟩ := Char.isDigit_iff_toNat.mp digit
  have lower : 48 ≤ c.toNat := lower
  have upper : c.toNat ≤ 57 := upper
  simp [isWhiteSpace]
  omega

theorem isDigit_of_mem_toDigits {n : Nat} : ∀ c ∈ Nat.toDigits 10 n, c.isDigit = true :=
  fun _ member => Nat.isDigit_of_mem_toDigits (by decide) (by decide) member

/-! ## Signed numbers -/

theorem parseInt32_digits {digits : List Char} (nonempty : digits ≠ [])
    (numeric : ∀ c ∈ digits, c.isDigit = true) (fits : Nat.ofDigitChars 10 digits 0 ≤ 2147483647) :
    parseInt32 digits = some ((Nat.ofDigitChars 10 digits 0 : Nat) : Int) := by
  obtain ⟨c, rest, rfl⟩ := List.exists_cons_of_ne_nil nonempty
  have digit := numeric c List.mem_cons_self
  have noMinus : c ≠ '-' := by
    rintro rfl
    cases digit
  have noPlus : c ≠ '+' := by
    rintro rfl
    cases digit
  have unsigned : ¬(c :: rest).head? = some '-' := fun same => noMinus (Option.some.inj same)
  have all : (c :: rest).all Char.isDigit = true := List.all_eq_true.mpr numeric
  have accepted : ¬((c :: rest).isEmpty || !(c :: rest).all Char.isDigit) = true := by
    rw [all, List.isEmpty_cons]
    exact Bool.false_ne_true
  unfold parseInt32
  split
  · rename_i same
    exact absurd (List.cons.inj same).1 noMinus
  · rename_i same
    exact absurd (List.cons.inj same).1 noPlus
  · dsimp only
    rw [if_neg unsigned, if_neg accepted, if_neg (by omega)]

theorem parseInt32_minus {digits : List Char} (nonempty : digits ≠ [])
    (numeric : ∀ c ∈ digits, c.isDigit = true) (fits : Nat.ofDigitChars 10 digits 0 ≤ 2147483648) :
    parseInt32 ('-' :: digits) = some (-((Nat.ofDigitChars 10 digits 0 : Nat) : Int)) := by
  have all : digits.all Char.isDigit = true := List.all_eq_true.mpr numeric
  have accepted : ¬(digits.isEmpty || !digits.all Char.isDigit) = true := by
    rw [all, List.isEmpty_eq_false_iff.mpr nonempty]
    exact Bool.false_ne_true
  unfold parseInt32
  simp only [List.head?_cons, ↓reduceIte]
  rw [if_neg accepted, if_neg (by omega)]

/-- A number of 32 bits is read back from its text. -/
theorem parseInt32_toString {n : Int} (lower : -2147483648 ≤ n) (upper : n ≤ 2147483647) :
    parseInt32 (toString n).toList = some n := by
  cases n with
  | ofNat m =>
      have written : (toString (Int.ofNat m)).toList = Nat.toDigits 10 m := Nat.toList_repr
      have value : Nat.ofDigitChars 10 (Nat.toDigits 10 m) 0 = m := Nat.ofDigitChars_ten_toDigits
      rw [written, parseInt32_digits Nat.toDigits_ne_nil isDigit_of_mem_toDigits, value]
      · rfl
      · rw [value]
        exact Int.ofNat_le.mp upper
  | negSucc m =>
      have written : (toString (Int.negSucc m)).toList = '-' :: Nat.toDigits 10 (m + 1) := by
        change ("-" ++ Nat.repr (m + 1)).toList = _
        rw [String.toList_append, Nat.toList_repr]
        rfl
      have value : Nat.ofDigitChars 10 (Nat.toDigits 10 (m + 1)) 0 = m + 1 :=
        Nat.ofDigitChars_ten_toDigits
      rw [written, parseInt32_minus Nat.toDigits_ne_nil isDigit_of_mem_toDigits, value]
      · rfl
      · rw [value]
        omega

/-- The characters of a number. -/
theorem mem_toString {n : Int} {c : Char} (member : c ∈ (toString n).toList) :
    c = '-' ∨ c.isDigit = true := by
  cases n with
  | ofNat m =>
      have written : (toString (Int.ofNat m)).toList = Nat.toDigits 10 m := Nat.toList_repr
      rw [written] at member
      exact Or.inr (isDigit_of_mem_toDigits c member)
  | negSucc m =>
      have written : (toString (Int.negSucc m)).toList = '-' :: Nat.toDigits 10 (m + 1) := by
        change ("-" ++ Nat.repr (m + 1)).toList = _
        rw [String.toList_append, Nat.toList_repr]
        rfl
      rw [written] at member
      exact (List.mem_cons.mp member).imp_right (isDigit_of_mem_toDigits c)

/-- A text with another character in it is no number. -/
theorem parseInt32_none {text : List Char} {c : Char} (member : c ∈ text)
    (other : c.isDigit = false) (noMinus : c ≠ '-') (noPlus : c ≠ '+') :
    parseInt32 text = none := by
  have refused {digits : List Char} (inside : c ∈ digits) :
      (digits.isEmpty || !digits.all Char.isDigit) = true := by
    have mixed : digits.all Char.isDigit = false := by
      rw [List.all_eq_false]
      exact ⟨c, inside, by rw [other]; exact Bool.false_ne_true⟩
    rw [mixed, Bool.not_false, Bool.or_true]
  unfold parseInt32
  split
  · exact if_pos (refused ((List.mem_cons.mp member).resolve_left noMinus))
  · exact if_pos (refused ((List.mem_cons.mp member).resolve_left noPlus))
  · exact if_pos (refused member)

/-! ## Fields of digits -/

/-- A number in a field of at least the given width, with zeros in front. -/
def padded (width n : Nat) : List Char :=
  List.replicate (width - (Nat.toDigits 10 n).length) '0' ++ Nat.toDigits 10 n

theorem padded_length {width n : Nat} (positive : 0 < width) (fits : n < 10 ^ width) :
    (padded width n).length = width := by
  have short := (Nat.length_toDigits_le_iff (by decide) positive).mpr fits
  unfold padded
  rw [List.length_append, List.length_replicate]
  omega

theorem isDigit_of_mem_padded (width n : Nat) : ∀ c ∈ padded width n, c.isDigit = true := by
  intro c member
  rcases List.mem_append.mp member with zero | digit
  · rw [List.eq_of_mem_replicate zero]
    rfl
  · exact isDigit_of_mem_toDigits c digit

theorem padded_ne_nil (width n : Nat) : padded width n ≠ [] :=
  List.append_ne_nil_of_right_ne_nil _ Nat.toDigits_ne_nil

theorem ofDigitChars_padded (width n : Nat) : Nat.ofDigitChars 10 (padded width n) 0 = n := by
  unfold padded
  simp [Nat.ofDigitChars_append, Nat.ofDigitChars_replicate_zero, Nat.ofDigitChars_ten_toDigits]

end OddJobs.Library.Text
