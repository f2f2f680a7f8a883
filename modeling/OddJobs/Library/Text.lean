import Mathlib.Data.List.DropRight

/-!
# Text and its bytes

UTF-8 text as a list of characters, and trimming it at both ends.
-/

namespace OddJobs.Library.Text

def encode (text : List Char) : List UInt8 := text.flatMap String.utf8EncodeChar

def decode (bytes : List UInt8) : Option (List Char) :=
  (String.fromUTF8? bytes.toByteArray).map String.toList

theorem encode_append (left right : List Char) :
    encode (left ++ right) = encode left ++ encode right :=
  List.flatMap_append

theorem decode_encode (text : List Char) : decode (encode text) = some text := by
  have valid : (encode text).toByteArray.IsValidUTF8 := .intro text rfl
  have string : String.fromUTF8 (encode text).toByteArray valid = String.ofList text := rfl
  simp [decode, String.fromUTF8?, valid, string]

theorem encode_of_decode {bytes : List UInt8} {text : List Char}
    (decoded : decode bytes = some text) : encode text = bytes := by
  have valid : bytes.toByteArray.IsValidUTF8 := by
    by_contra invalid
    simp [decode, String.fromUTF8?, invalid] at decoded
  obtain ⟨source, same⟩ := valid
  have bytes_eq : bytes = encode source := List.toByteArray_inj.mp same
  rw [bytes_eq, decode_encode] at decoded
  rw [bytes_eq, Option.some.inj decoded]

/-- A line feed is one byte, and no other character holds that byte. -/
theorem newline_mem_utf8EncodeChar {c : Char} : 10 ∈ String.utf8EncodeChar c ↔ c = '\n' := by
  constructor
  · intro member
    -- every byte of a longer encoding has its top bit set
    have high : ∀ n, 0x80 ≤ n → n < 256 → (10 : UInt8) ≠ UInt8.ofNat n := by
      intro n lower upper same
      have value := congrArg UInt8.toNat same
      rw [UInt8.toNat_ofNat_of_lt' (by simpa [UInt8.size] using upper)] at value
      change 10 = n at value
      omega
    simp only [String.utf8EncodeChar] at member
    split at member
    next small =>
        have below : c.val.toNat < UInt8.size := Nat.lt_of_le_of_lt small (by decide)
        have value := congrArg UInt8.toNat (List.mem_singleton.mp member)
        rw [UInt8.toNat_ofNat_of_lt' below] at value
        change 10 = c.val.toNat at value
        exact Char.ext (UInt32.toNat_inj.mp value.symm)
    next =>
        exfalso
        split at member
        · simp only [List.mem_cons, List.not_mem_nil, or_false] at member
          rcases member with same | same <;> exact high _ (by omega) (by omega) same
        · split at member <;>
            simp only [List.mem_cons, List.not_mem_nil, or_false] at member
          · rcases member with same | same | same <;> exact high _ (by omega) (by omega) same
          · rcases member with same | same | same | same <;>
              exact high _ (by omega) (by omega) same
  · rintro rfl
    decide

theorem newline_mem_encode {text : List Char} : 10 ∈ encode text ↔ '\n' ∈ text := by
  rw [encode, List.mem_flatMap]
  constructor
  · rintro ⟨c, member, inside⟩
    rw [newline_mem_utf8EncodeChar] at inside
    exact inside ▸ member
  · intro member
    exact ⟨'\n', member, newline_mem_utf8EncodeChar.mpr rfl⟩

theorem encode_newline : encode ['\n'] = [10] := by decide

def isWhiteSpace (c : Char) : Bool :=
  let n := c.toNat
  (9 ≤ n && n ≤ 13) || n == 0x20 || n == 0x85 || n == 0xA0 || n == 0x1680 ||
    (0x2000 ≤ n && n ≤ 0x200A) || n == 0x2028 || n == 0x2029 || n == 0x202F || n == 0x205F ||
    n == 0x3000

def trim (text : List Char) : List Char :=
  (text.dropWhile isWhiteSpace).rdropWhile isWhiteSpace

theorem newline_white : ∀ c ∈ ['\n'], isWhiteSpace c = true :=
  List.forall_mem_singleton.mpr (by decide)

/-- A text without the pattern at its start, however often it occurs there. -/
def trimStartMatches (pattern : List Char) : Nat → List Char → List Char
  | 0, text => text
  | fuel + 1, text =>
      if pattern.isPrefixOf text then trimStartMatches pattern fuel (text.drop pattern.length)
      else text

/-- A text without the pattern at its end, however often it occurs there. -/
def trimEndMatches (pattern text : List Char) : List Char :=
  (trimStartMatches pattern.reverse text.length text.reverse).reverse

/-- The fuel does not matter where it is no less than the text is long. -/
theorem trimStartMatches_fuel {pattern : List Char} (some : pattern ≠ []) {fuel fuel' : Nat}
    {text : List Char} (enough : text.length ≤ fuel) (enough' : text.length ≤ fuel') :
    trimStartMatches pattern fuel text = trimStartMatches pattern fuel' text := by
  induction fuel generalizing fuel' text with
  | zero =>
      have empty : text = [] := List.length_eq_zero_iff.mp (Nat.le_zero.mp enough)
      subst empty
      cases fuel' with
      | zero => rfl
      | succ fuel' =>
          obtain ⟨c, rest, rfl⟩ := List.exists_cons_of_ne_nil some
          rfl
  | succ fuel ih =>
      cases fuel' with
      | zero =>
          have empty : text = [] := List.length_eq_zero_iff.mp (Nat.le_zero.mp enough')
          subst empty
          obtain ⟨c, rest, rfl⟩ := List.exists_cons_of_ne_nil some
          rfl
      | succ fuel' =>
          rw [trimStartMatches, trimStartMatches]
          have positive := List.length_pos_iff.mpr some
          split
          · apply ih
            · rw [List.length_drop]
              omega
            · rw [List.length_drop]
              omega
          · rfl

/-- One more occurrence at the end is trimmed with the others. -/
theorem trimEndMatches_append {pattern : List Char} (some : pattern ≠ []) (text : List Char) :
    trimEndMatches pattern (text ++ pattern) = trimEndMatches pattern text := by
  have some' : pattern.reverse ≠ [] := List.reverse_ne_nil_iff.mpr some
  have positive := List.length_pos_iff.mpr some
  unfold trimEndMatches
  congr 1
  rw [List.reverse_append]
  obtain ⟨fuel, more⟩ : ∃ fuel, (text ++ pattern).length = fuel + 1 :=
    ⟨(text ++ pattern).length - 1, by rw [List.length_append]; omega⟩
  rw [more, trimStartMatches,
    if_pos (List.isPrefixOf_iff_prefix.mpr (List.prefix_append _ _)), List.drop_left]
  refine trimStartMatches_fuel some' ?_ (Nat.le_of_eq List.length_reverse)
  rw [List.length_append] at more
  rw [List.length_reverse]
  omega

def after (pattern : List Char) : List Char → Option (List Char)
  | [] => if pattern.isEmpty then some [] else none
  | c :: rest =>
      if pattern.isPrefixOf (c :: rest) then some ((c :: rest).drop pattern.length)
      else after pattern rest

def trimNewlines (text : List Char) : List Char := (text.reverse.dropWhile (· == '\n')).reverse

/-- Parse a decimal `i32`. -/
def parseInt32 (text : List Char) : Option Int :=
  let digits := match text with
    | '-' :: rest | '+' :: rest => rest
    | rest => rest
  let number : Int := Nat.ofDigitChars 10 digits 0
  let number := if text.head? = some '-' then -number else number
  if digits.isEmpty || !digits.all Char.isDigit then none
  else if number < -2147483648 ∨ 2147483647 < number then none
  else some number

/-- A text that begins and ends outside white space. -/
structure Trimmed (text : List Char) : Prop where
  starts : ∀ c, text.head? = some c → isWhiteSpace c = false
  ends : ∀ c, text.getLast? = some c → isWhiteSpace c = false

theorem dropWhile_of_starts {text : List Char}
    (starts : ∀ c, text.head? = some c → isWhiteSpace c = false) :
    text.dropWhile isWhiteSpace = text := by
  cases text with
  | nil => rfl
  | cons c rest => simp [starts c rfl]

theorem rdropWhile_of_ends {text : List Char}
    (ends : ∀ c, text.getLast? = some c → isWhiteSpace c = false) :
    text.rdropWhile isWhiteSpace = text := by
  cases text using List.reverseRecOn with
  | nil => rfl
  | append_singleton rest c =>
      have outside := ends c (by simp)
      rw [List.rdropWhile_concat, outside]
      rfl

theorem rdropWhile_append_space {text space : List Char}
    (blank : ∀ c ∈ space, isWhiteSpace c = true) :
    (text ++ space).rdropWhile isWhiteSpace = text.rdropWhile isWhiteSpace := by
  induction space using List.reverseRecOn with
  | nil => rw [List.append_nil]
  | append_singleton rest c ih =>
      rw [← List.append_assoc, List.rdropWhile_concat, blank c (by simp)]
      exact ih fun other member => blank other (List.mem_append_left _ member)

/-- A text is its trimmed part between two stretches of white space. -/
theorem exists_trim (text : List Char) :
    ∃ before after, text = before ++ trim text ++ after ∧
      (∀ c ∈ before, isWhiteSpace c = true) ∧ ∀ c ∈ after, isWhiteSpace c = true := by
  refine ⟨text.takeWhile isWhiteSpace, (text.dropWhile isWhiteSpace).rtakeWhile isWhiteSpace,
    ?_, ?_, ?_⟩
  · rw [List.append_assoc, trim, List.rdropWhile_append_rtakeWhile,
      List.takeWhile_append_dropWhile]
  · exact fun c member => List.mem_takeWhile_imp member
  · exact fun c member => List.mem_rtakeWhile_imp member

theorem trim_trimmed (text : List Char) : Trimmed (trim text) where
  starts := by
    intro c first
    -- the first character left is the first one that is not white space
    obtain ⟨rest, split⟩ := List.rdropWhile_prefix isWhiteSpace (text.dropWhile isWhiteSpace)
    have head : (text.dropWhile isWhiteSpace).head? = some c := by
      rw [← split]
      change (trim text ++ rest).head? = some c
      rw [List.head?_append, first]
      rfl
    have outside := List.head?_dropWhile_not isWhiteSpace text
    rw [head] at outside
    exact outside
  ends := by
    intro c last
    have nonempty : trim text ≠ [] := by
      rintro none
      rw [none] at last
      cases last
    have outside := List.rdropWhile_last_not isWhiteSpace (text.dropWhile isWhiteSpace) nonempty
    rw [List.getLast?_eq_getLast_of_ne_nil nonempty] at last
    have same : (trim text).getLast nonempty = c := Option.some.inj last
    rw [← same]
    exact Bool.eq_false_iff.mpr outside

/-- White space around a text is trimmed away. -/
theorem trim_space {text before after : List Char} (trimmed : Trimmed text) (nonempty : text ≠ [])
    (blankBefore : ∀ c ∈ before, isWhiteSpace c = true)
    (blankAfter : ∀ c ∈ after, isWhiteSpace c = true) : trim (before ++ text ++ after) = text := by
  have starts : ∀ c, (text ++ after).head? = some c → isWhiteSpace c = false := by
    cases text with
    | nil => exact absurd rfl nonempty
    | cons first rest => exact trimmed.starts
  rw [trim, List.append_assoc, List.dropWhile_append_of_pos blankBefore,
    dropWhile_of_starts starts, rdropWhile_append_space blankAfter,
    rdropWhile_of_ends trimmed.ends]

theorem Trimmed.trim_eq {text : List Char} (trimmed : Trimmed text) : trim text = text := by
  rw [trim, dropWhile_of_starts trimmed.starts, rdropWhile_of_ends trimmed.ends]

/-- In front of a text that is trimmed, only what is at the start is trimmed away. -/
theorem trim_append {text : List Char} (trimmed : Trimmed text) (nonempty : text ≠ [])
    (front : List Char) : trim (front ++ text) = front.dropWhile isWhiteSpace ++ text := by
  have start : (front ++ text).dropWhile isWhiteSpace = front.dropWhile isWhiteSpace ++ text := by
    rw [List.dropWhile_append]
    split
    · rename_i blank
      rw [List.isEmpty_iff.mp blank, dropWhile_of_starts trimmed.starts]
      rfl
    · rfl
  rw [trim, start]
  apply rdropWhile_of_ends
  intro c last
  rw [List.getLast?_append_of_ne_nil _ nonempty] at last
  exact trimmed.ends c last

theorem trim_append_space {space : List Char} (blank : ∀ c ∈ space, isWhiteSpace c = true)
    (text : List Char) : trim (text ++ space) = trim text := by
  unfold trim
  rw [List.dropWhile_append]
  split
  · rename_i none
    rw [List.isEmpty_iff.mp none, List.dropWhile_eq_nil_iff.mpr blank]
  · exact rdropWhile_append_space blank

def trimEnd (text : List Char) : List Char := text.rdropWhile isWhiteSpace

/-- Trimming the end stops at a character that is no white space. -/
theorem trimEnd_append {c : Char} (outside : isWhiteSpace c = false) (front rest : List Char) :
    trimEnd (front ++ c :: rest) = front ++ c :: trimEnd rest := by
  induction rest using List.reverseRecOn with
  | nil =>
      exact List.rdropWhile_concat_neg _ _ _ (by rw [outside]; exact Bool.false_ne_true)
  | append_singleton rest last ih =>
      unfold trimEnd at ih ⊢
      rw [← List.cons_append, ← List.append_assoc, List.rdropWhile_concat, List.rdropWhile_concat, ih]
      split
      · rfl
      · rw [List.append_assoc, List.cons_append]

theorem trimEnd_eq_self_iff (text : List Char) :
    trimEnd text = text ↔ ∀ c, text.getLast? = some c → isWhiteSpace c = false := by
  constructor
  · intro same c last
    have nonempty : text ≠ [] := by
      rintro rfl
      cases last
    have outside := List.rdropWhile_eq_self_iff.mp same nonempty
    rw [List.getLast?_eq_getLast_of_ne_nil nonempty] at last
    rw [Option.some.inj last, Bool.not_eq_true] at outside
    exact outside
  · exact rdropWhile_of_ends

theorem trim_length_le (text : List Char) : (trim text).length ≤ text.length :=
  (List.rdropWhile_prefix isWhiteSpace _).length_le.trans
    (List.dropWhile_suffix isWhiteSpace).length_le

theorem blank_of_trim {text : List Char} (blank : trim text = []) :
    ∀ c ∈ text, isWhiteSpace c = true := by
  obtain ⟨before, after, split, blankBefore, blankAfter⟩ := exists_trim text
  rw [blank, List.append_nil] at split
  intro c member
  rw [split] at member
  exact (List.mem_append.mp member).elim (blankBefore c) (blankAfter c)

theorem trim_of_blank {text : List Char} (blank : ∀ c ∈ text, isWhiteSpace c = true) :
    trim text = [] := by
  rw [trim, List.dropWhile_eq_nil_iff.mpr blank]
  rfl

theorem encode_ne_nil {text : List Char} (nonempty : text ≠ []) : encode text ≠ [] := by
  cases text with
  | nil => exact absurd rfl nonempty
  | cons c rest =>
      intro none
      exact String.utf8EncodeChar_ne_nil (List.append_eq_nil_iff.mp none).1

/-- The trimmed text of a line has no line feed. -/
theorem newline_notMem_trim {text : List Char} {front : List UInt8} (inside : 10 ∉ front)
    (line : encode text = front ∨ encode text = front ++ [10]) : '\n' ∉ trim text := by
  intro member
  obtain ⟨before, after, split, -, -⟩ := exists_trim text
  obtain ⟨left, right, trim_eq⟩ := List.append_of_mem member
  rw [trim_eq] at split
  -- the line feed is white space, so the trimmed text goes on after it
  have goes_on : right ≠ [] := by
    rintro rfl
    have outside := (trim_trimmed text).ends '\n' (by rw [trim_eq]; simp)
    exact absurd outside (by decide)
  have bytes : encode text = encode (before ++ left) ++ 10 :: encode (right ++ after) := by
    rw [split]
    simp [encode, List.flatMap_append, String.utf8EncodeChar]
  have more : encode (right ++ after) ≠ [] :=
    encode_ne_nil fun none => goes_on (List.append_eq_nil_iff.mp none).1
  obtain ⟨front', last, ends⟩ := List.eq_nil_or_concat (encode (right ++ after)) |>.resolve_left more
  rw [ends] at bytes
  rcases line with same | same
  · exact inside (by rw [← same, bytes]; simp)
  · rw [same, List.concat_eq_append, ← List.cons_append, ← List.append_assoc] at bytes
    exact inside (by rw [(List.append_inj' bytes rfl).1]; simp)

end OddJobs.Library.Text
