import OddJobs.Library.Slices
import OddJobs.Shell.Contents
import OddJobs.Shell.Grammar

/-!
# Where the tokens stand

The tokens of an input stand one behind the other, and their spans begin and end at characters.
What the lexer leaves out of a word, and the digits that a redirection carries, are single bytes.
-/

namespace OddJobs.Shell

open Library

/-! ## Positions in the input -/

/-- A span between characters of the input. -/
structure Span.On (input : List Char) (span : Span) : Prop where
  le : span.start ≤ span.stop
  start : Text.Boundary span.start input
  stop : Text.Boundary span.stop input

/-- Each byte between two positions is a character. -/
def Bytes (input : List Char) (start stop : Nat) : Prop :=
  ∀ position, start ≤ position → position ≤ stop → Text.Boundary position input

def Cursor.In (input : List Char) (cursor : Cursor Char) : Prop :=
  ∃ front, input = front ++ cursor.rest ∧ Text.size front = cursor.pos

section Positions

variable {input text : List Char} {before after : Cursor Char} {start middle stop : Nat}

theorem Bytes.trans (former : Bytes input start middle) (latter : Bytes input middle stop) :
    Bytes input start stop := by
  intro position lower upper
  rcases Nat.le_total position middle with front | back
  · exact former position lower front
  · exact latter position back upper

theorem Bytes.single (boundary : Text.Boundary start input) : Bytes input start start := by
  intro position lower upper
  rw [Nat.le_antisymm upper lower]
  exact boundary

namespace Cursor.In

theorem begin (input : List Char) : Cursor.In input ⟨0, input⟩ := ⟨[], rfl, rfl⟩

theorem boundary (inside : before.In input) : Text.Boundary before.pos input := by
  obtain ⟨front, is, sized⟩ := inside
  exact ⟨front, before.rest, is, sized⟩

/-- A cursor that has moved on still stands in the input. -/
theorem consumes (inside : before.In input) (consumed : Consumes text before after) :
    after.In input := by
  obtain ⟨front, is, sized⟩ := inside
  refine ⟨front ++ text, ?_, ?_⟩
  · rw [is, consumed.rest_eq, List.append_assoc]
  · rw [Text.size_append, sized]
    exact consumed.pos_eq.symm

/-- Letters of one byte. -/
theorem bytes (inside : before.In input) (consumed : Consumes text before after)
    (single : ∀ c ∈ text, c.utf8Size = 1) :
    Bytes input before.pos after.pos ∧ after.pos = before.pos + text.length := by
  have moved : after.pos = before.pos + Text.size text := consumed.pos_eq
  rw [Text.size_single single] at moved
  refine ⟨?_, moved⟩
  intro position lower upper
  obtain ⟨front, is, sized⟩ := inside
  obtain ⟨taken, rfl⟩ := Nat.exists_eq_add_of_le lower
  refine ⟨front ++ text.take taken, text.drop taken ++ after.rest, ?_, ?_⟩
  · rw [is, consumed.rest_eq, List.append_assoc, ← List.append_assoc (text.take taken),
      List.take_append_drop]
  · rw [Text.size_append, Text.size_single fun c member => single c (List.mem_of_mem_take member),
      List.length_take, sized]
    omega

end Cursor.In

theorem Consumes.pos_le (consumed : Consumes text before after) : before.pos ≤ after.pos := by
  rw [consumed.pos_eq]
  exact Nat.le_add_right _ _

/-- A peeked letter of one byte. -/
theorem Cursor.In.peeked {c : Char} (inside : before.In input) (peeked : before.peekChar = some c)
    (single : c.utf8Size = 1) :
    before.next.In input ∧ before.next.pos = before.pos + 1 ∧
      Bytes input before.pos before.next.pos := by
  obtain ⟨a, rfl, consumed⟩ := Consumes.peeked peeked
  obtain ⟨bytes, pos⟩ := inside.bytes consumed (List.forall_mem_singleton.mpr single)
  exact ⟨inside.consumes consumed, pos, bytes⟩

end Positions

/-! ## Tokens -/

/-- A token has letters, and where it assigns, a value may begin behind the name. -/
structure Token.Placed (input : List Char) (token : Token Char) : Prop where
  on : token.span.On input
  lt : token.span.start < token.span.stop
  assigned : ∀ name value, token.kind.assignment = some (name, value) →
    Text.Boundary (token.span.start + Text.size name + 1) input ∧
      token.span.start + Text.size name + 1 ≤ token.span.stop

/-- A token that begins at a position, and the cursor behind it. -/
structure Lexed (input : List Char) (start : Nat) (token : Token Char) (after : Cursor Char) :
    Prop where
  start_eq : token.span.start = start
  placed : token.Placed input
  le : token.span.stop ≤ after.pos
  inside : after.In input

section Tokens

variable {input : List Char} {before after : Cursor Char} {token : Token Char} {start : Nat}

theorem Lexed.mark {kind : TokenKind Char} {stop : Nat} (plain : kind.assignment = none)
    (begins : Text.Boundary start input) (ends : Text.Boundary stop input) (lt : start < stop)
    (le : stop ≤ after.pos) (inside : after.In input) :
    Lexed input start ⟨kind, start, stop⟩ after where
  start_eq := rfl
  placed := ⟨⟨Nat.le_of_lt lt, begins, ends⟩, lt, fun name value assigns => by
    rw [plain] at assigns
    cases assigns⟩
  le := le
  inside := inside

/-- A token up to the cursor behind it. -/
theorem Lexed.whole {kind : TokenKind Char} (plain : kind.assignment = none)
    (inside : before.In input) (advances : before.Advances after) :
    Lexed input before.pos ⟨kind, before.pos, after.pos⟩ after := by
  obtain ⟨a, text, consumed⟩ := advances
  have reached := inside.consumes consumed
  refine Lexed.mark plain inside.boundary reached.boundary ?_ (Nat.le_refl _) reached
  rw [consumed.pos_eq, List.map_cons, List.sum_cons]
  have positive : 0 < size a := a.utf8Size_pos
  omega

/-- A token of a known width, and the cursor right behind it. -/
theorem Lexed.width {kind : TokenKind Char} {width : Nat} (plain : kind.assignment = none)
    (begins : Text.Boundary start input) (inside : after.In input)
    (ends : after.pos = start + (width + 1)) :
    Lexed input start ⟨kind, start, start + (width + 1)⟩ after :=
  Lexed.mark plain begins (ends ▸ inside.boundary) (Nat.lt_add_of_pos_right (Nat.succ_pos width))
    (Nat.le_of_eq ends.symm) inside

theorem lexNewline_lexed {noPending : Bool} (inside : before.In input)
    (peeked : before.peekChar = some '\n') :
    Lexed input before.pos (lexNewline noPending before).1 (lexNewline noPending before).2 := by
  obtain ⟨next, pos, -⟩ := inside.peeked peeked rfl
  obtain ⟨text, consumed⟩ := lexNewline_consumes noPending before
  refine Lexed.mark rfl inside.boundary ?_ (Nat.lt_succ_self _) ?_ (next.consumes consumed)
  · rw [← pos]
    exact next.boundary
  · rw [← pos]
    exact consumed.pos_le

theorem lexSingle_lexed {kind : TokenKind Char} {c : Char} (plain : kind.assignment = none)
    (inside : before.In input) (peeked : before.peekChar = some c) (single : c.utf8Size = 1) :
    Lexed input before.pos (lexSingle kind before).1 (lexSingle kind before).2 := by
  obtain ⟨next, pos, -⟩ := inside.peeked peeked single
  exact Lexed.width plain inside.boundary next pos

theorem lexAmpersand_lexed (inside : before.In input) (peeked : before.peekChar = some '&') :
    Lexed input before.pos (lexAmpersand before).1 (lexAmpersand before).2 := by
  obtain ⟨first, pos, -⟩ := inside.peeked peeked rfl
  unfold lexAmpersand
  dsimp only
  split
  · rename_i again
    obtain ⟨second, pos', -⟩ := first.peeked again rfl
    rw [pos] at pos'
    exact Lexed.width rfl inside.boundary second pos'
  · split
    · rename_i redirects
      obtain ⟨second, pos', -⟩ := first.peeked redirects rfl
      rw [pos] at pos'
      split
      · rename_i appends
        obtain ⟨third, pos'', -⟩ := second.peeked appends rfl
        rw [pos'] at pos''
        exact Lexed.width rfl inside.boundary third pos''
      · exact Lexed.width rfl inside.boundary second pos'
    · exact Lexed.width rfl inside.boundary first pos

theorem lexPipe_lexed (inside : before.In input) (peeked : before.peekChar = some '|') :
    Lexed input before.pos (lexPipe before).1 (lexPipe before).2 := by
  obtain ⟨first, pos, -⟩ := inside.peeked peeked rfl
  unfold lexPipe
  dsimp only
  split
  · rename_i again
    obtain ⟨second, pos', -⟩ := first.peeked again rfl
    rw [pos] at pos'
    exact Lexed.width rfl inside.boundary second pos'
  · exact Lexed.width rfl inside.boundary first pos

theorem lexVariable_lexed (inside : before.In input) (peeked : before.peekChar = some '$')
    (read : lexVariable before = .ok (token, after)) : Lexed input before.pos token after := by
  have advances := lexVariable_advances peeked read
  obtain ⟨first, pos, -⟩ := inside.peeked peeked rfl
  unfold lexVariable at read
  dsimp only at read
  split at read
  · cases read
  · rename_i b rest stands
    split at read
    · obtain ⟨⟨content, cursor⟩, -, returned⟩ := bind_eq_ok.mp read
      cases returned
      exact Lexed.whole rfl inside advances
    · split at read
      · obtain ⟨⟨⟨name, modifier⟩, cursor⟩, -, returned⟩ := bind_eq_ok.mp read
        cases returned
        exact Lexed.whole rfl inside advances
      · split at read
        · rename_i special
          have single : (Letter.char b).utf8Size = 1 := by
            unfold isSpecialVariable at special
            simp only [Bool.or_eq_true, beq_iff_eq] at special
            rcases special with ((is | is) | is) | is <;> rw [is] <;> rfl
          have shown : before.next.peekChar = some b := by
            rw [Cursor.peekChar, stands]
            rfl
          obtain ⟨second, pos', -⟩ := first.peeked shown single
          cases read
          rw [← pos']
          exact Lexed.whole rfl inside advances
        · split at read
          · cases read
            exact Lexed.whole rfl inside advances
          · cases read

theorem lexBacktickSubstitution_lexed (inside : before.In input)
    (peeked : before.peekChar = some '`')
    (read : lexBacktickSubstitution before = .ok (token, after)) :
    Lexed input before.pos token after := by
  have advances := lexBacktickSubstitution_advances peeked read
  obtain ⟨⟨content, cursor⟩, -, returned⟩ := bind_eq_ok.mp read
  cases returned
  exact Lexed.whole rfl inside advances

theorem lexSingleQuote_lexed (inside : before.In input) (peeked : before.peekChar = some '\'')
    (read : lexSingleQuote before = .ok (token, after)) : Lexed input before.pos token after := by
  have advances := lexSingleQuote_advances peeked read
  obtain ⟨⟨content, cursor⟩, -, returned⟩ := bind_eq_ok.mp read
  cases returned
  exact Lexed.whole rfl inside advances

theorem lexDoubleQuote_lexed (inside : before.In input) (peeked : before.peekChar = some '\"')
    (read : lexDoubleQuote before = .ok (token, after)) : Lexed input before.pos token after := by
  have advances := lexDoubleQuote_advances peeked read
  obtain ⟨⟨content, cursor⟩, -, returned⟩ := bind_eq_ok.mp read
  cases returned
  exact Lexed.whole rfl inside advances

/-! ## Redirections -/

theorem Cursor.peekChar_ne_nil {c : Char} (peeked : before.peekChar = some c) :
    before.rest.isEmpty = false := by
  obtain ⟨a, rest, stands, -⟩ := Cursor.peek_some peeked
  rw [stands]
  rfl

theorem lexDupTarget_lexed {source prefixLen : Nat} {output : Bool}
    (begins : Text.Boundary start input) (lt : start < before.pos) (inside : before.In input)
    (read : lexDupTarget start source output prefixLen before = .ok (token, after)) :
    Lexed input start token after := by
  unfold lexDupTarget at read
  dsimp only at read
  split at read
  · rename_i dash
    obtain ⟨next, pos, -⟩ := inside.peeked dash rfl
    rw [if_neg (by rw [Cursor.peekChar_ne_nil dash]; exact Bool.false_ne_true), ← pos] at read
    cases read
    exact Lexed.mark rfl begins next.boundary (by omega) (Nat.le_refl _) next
  · split at read
    · cases read
    · rename_i some
      split at read
      · cases read
      · have some' : before.rest.isEmpty = false := by
          rw [List.isEmpty_eq_false_iff]
          intro none
          rw [none] at some
          exact some rfl
        have numeric : ∀ c ∈ before.rest.takeWhile fun a => (Letter.char a).isDigit,
            c.utf8Size = 1 :=
          fun c member => Text.utf8Size_digit (List.mem_takeWhile_imp member)
        have consumed : Consumes (before.rest.takeWhile fun a => (Letter.char a).isDigit) before
            ⟨before.pos + ((before.rest.takeWhile fun a => (Letter.char a).isDigit).map size).sum,
              before.rest.dropWhile fun a => (Letter.char a).isDigit⟩ :=
          ⟨(List.takeWhile_append_dropWhile ..).symm, rfl⟩
        have reached := inside.consumes consumed
        obtain ⟨-, moved⟩ := inside.bytes consumed numeric
        dsimp only at moved
        rw [some', if_neg Bool.false_ne_true, ← moved] at read
        cases read
        refine Lexed.mark rfl begins reached.boundary ?_ (Nat.le_refl _) reached
        exact Nat.lt_of_lt_of_le lt consumed.pos_le

theorem lexHeredoc_lexed {fd : Option Nat} {stripTabs : Bool} {prefixLen : Nat}
    (begins : Text.Boundary start input) (lt : start < before.pos) (inside : before.In input)
    (read : lexHeredoc start fd stripTabs prefixLen before = .ok (token, after)) :
    Lexed input start token after := by
  obtain ⟨text, consumed⟩ := lexHeredoc_consumes read
  have reached := inside.consumes consumed
  obtain ⟨⟨⟨delimiter, quoted⟩, cursor⟩, -, returned⟩ := bind_eq_ok.mp read
  dsimp only at returned
  split at returned
  · cases returned
  · cases returned
    exact Lexed.mark rfl begins reached.boundary (Nat.lt_of_lt_of_le lt consumed.pos_le)
      (Nat.le_refl _) reached

/-- The span of a redirection counts the digits of its file descriptor, of which there may be
more in the input. -/
theorem lexRedirectOut_lexed {fd : Option Nat} (behind : Bytes input start before.pos)
    (fits : start + fdPrefixLen fd ≤ before.pos) (inside : before.In input)
    (peeked : before.peekChar = some '>')
    (read : lexRedirectOut start fd before = .ok (token, after)) :
    Lexed input start token after := by
  obtain ⟨first, pos, bytes⟩ := inside.peeked peeked rfl
  have begins := behind start (Nat.le_refl _) (Nat.le_trans (Nat.le_add_right _ _) fits)
  have upTo := behind.trans bytes
  unfold lexRedirectOut at read
  dsimp only at read
  split at read
  · rename_i again
    obtain ⟨second, pos', bytes'⟩ := first.peeked again rfl
    cases read
    exact Lexed.mark rfl begins (upTo.trans bytes' _ (by omega) (by omega)) (by omega) (by omega)
      second
  · split at read
    · rename_i ampersand
      obtain ⟨second, pos', -⟩ := first.peeked ampersand rfl
      exact lexDupTarget_lexed begins (by omega) second read
    · cases read
      exact Lexed.mark rfl begins (upTo _ (by omega) (by omega)) (by omega) (by omega) first

theorem lexRedirectIn_lexed {fd : Option Nat} (behind : Bytes input start before.pos)
    (fits : start + fdPrefixLen fd ≤ before.pos) (inside : before.In input)
    (peeked : before.peekChar = some '<')
    (read : lexRedirectIn start fd before = .ok (token, after)) :
    Lexed input start token after := by
  obtain ⟨first, pos, bytes⟩ := inside.peeked peeked rfl
  have begins := behind start (Nat.le_refl _) (Nat.le_trans (Nat.le_add_right _ _) fits)
  have upTo := behind.trans bytes
  unfold lexRedirectIn at read
  dsimp only at read
  split at read
  · rename_i again
    obtain ⟨second, pos', bytes'⟩ := first.peeked again rfl
    split at read
    · rename_i thrice
      obtain ⟨third, pos'', bytes''⟩ := second.peeked thrice rfl
      cases read
      exact Lexed.mark rfl begins ((upTo.trans bytes').trans bytes'' _ (by omega) (by omega))
        (by omega) (by omega) third
    · split at read
      · rename_i dash
        obtain ⟨third, pos'', -⟩ := second.peeked dash rfl
        exact lexHeredoc_lexed begins (by omega) third read
      · exact lexHeredoc_lexed begins (by omega) second read
  · split at read
    · rename_i ampersand
      obtain ⟨second, pos', -⟩ := first.peeked ampersand rfl
      exact lexDupTarget_lexed begins (by omega) second read
    · cases read
      exact Lexed.mark rfl begins (upTo _ (by omega) (by omega)) (by omega) (by omega) first

/-! ## Words -/

theorem lineContinuation_bytes (inside : before.In input)
    (continues : lineContinuation before = some after) :
    after.In input ∧ before.pos ≤ after.pos ∧ Bytes input before.pos after.pos := by
  unfold lineContinuation at continues
  split at continues
  · rename_i backslash
    obtain ⟨first, pos, bytes⟩ := inside.peeked backslash rfl
    dsimp only at continues
    split at continues
    · rename_i newline
      obtain ⟨second, pos', bytes'⟩ := first.peeked newline rfl
      cases continues
      exact ⟨second, by omega, bytes.trans bytes'⟩
    · split at continues
      · rename_i carriage
        obtain ⟨second, pos', bytes'⟩ := first.peeked carriage rfl
        split at continues
        · rename_i newline
          obtain ⟨third, pos'', bytes''⟩ := second.peeked newline rfl
          cases continues
          exact ⟨third, by omega, (bytes.trans bytes').trans bytes''⟩
        · cases continues
      · cases continues
  · cases continues

/-- Letters that a word takes up on the way from one cursor to another, and where its last
letter ends. -/
structure Spells (input : List Char) (before : Cursor Char) (stop : Nat) (letters : List Char)
    (stop' : Nat) (after : Cursor Char) : Prop where
  inside : after.In input
  grows : stop ≤ stop'
  le : stop' ≤ after.pos
  boundary : Text.Boundary stop' input
  lt : letters ≠ [] → before.pos < stop'
  /-- Letters of one byte each stand for bytes of the input, of which there may be more. -/
  bytes : (∀ c ∈ letters, c.utf8Size = 1) →
    Bytes input before.pos after.pos ∧ before.pos + letters.length ≤ after.pos
  /-- So do the first letters. -/
  front : ∀ count, 0 < count → count ≤ letters.length →
    (∀ c ∈ letters.take count, c.utf8Size = 1) →
      ∃ position, before.pos + count ≤ position ∧ position ≤ stop' ∧
        Bytes input before.pos position

namespace Spells

variable {stop stop' : Nat} {letters later : List Char} {middle : Cursor Char}

theorem nothing (inside : before.In input) (le : stop ≤ before.pos)
    (ends : Text.Boundary stop input) : Spells input before stop [] stop before where
  inside := inside
  grows := Nat.le_refl _
  le := le
  boundary := ends
  lt := fun some => absurd rfl some
  bytes := fun _ => ⟨Bytes.single inside.boundary, Nat.le_refl _⟩
  front := fun _ positive none => absurd none (Nat.not_le_of_lt positive)

/-- A line continuation stands for no letter. -/
theorem skip (moves : before.pos ≤ middle.pos) (bytes : Bytes input before.pos middle.pos)
    (spells : Spells input middle stop later stop' after) :
    Spells input before stop later stop' after where
  inside := spells.inside
  grows := spells.grows
  le := spells.le
  boundary := spells.boundary
  lt := fun some => Nat.lt_of_le_of_lt moves (spells.lt some)
  bytes := by
    intro single
    obtain ⟨rest, counted⟩ := spells.bytes single
    exact ⟨bytes.trans rest, by omega⟩
  front := by
    intro count positive le single
    obtain ⟨position, lower, upper, rest⟩ := spells.front count positive le single
    exact ⟨position, by omega, upper, bytes.trans rest⟩

/-- Letters that are spelled by a text of the input; the first of them may be taken apart. -/
theorem letters_append (moves : before.pos < middle.pos)
    (bytes : (∀ c ∈ letters, c.utf8Size = 1) →
      Bytes input before.pos middle.pos ∧ before.pos + letters.length ≤ middle.pos)
    (apart : ∀ count, 0 < count → (∀ c ∈ letters.take count, c.utf8Size = 1) →
      ∀ c ∈ letters, c.utf8Size = 1)
    (spells : Spells input middle middle.pos later stop' after) (ends : stop ≤ before.pos) :
    Spells input before stop (letters ++ later) stop' after where
  inside := spells.inside
  grows := Nat.le_trans ends (Nat.le_trans (Nat.le_of_lt moves) spells.grows)
  le := spells.le
  boundary := spells.boundary
  lt := fun _ => Nat.lt_of_lt_of_le moves spells.grows
  bytes := by
    intro single
    obtain ⟨first, counted⟩ := bytes fun c member => single c (List.mem_append_left _ member)
    obtain ⟨rest, counted'⟩ := spells.bytes fun c member =>
      single c (List.mem_append_right _ member)
    rw [List.length_append]
    exact ⟨first.trans rest, by omega⟩
  front := by
    intro count positive le single
    have grows := spells.grows
    obtain ⟨first, counted⟩ := bytes (apart count positive fun c member =>
      single c (by rw [List.take_append]; exact List.mem_append_left _ member))
    by_cases inFirst : count ≤ letters.length
    · exact ⟨middle.pos, by omega, grows, first⟩
    · rw [List.length_append] at le
      obtain ⟨position, lower, upper, rest⟩ := spells.front (count - letters.length) (by omega)
        (by omega) fun c member =>
          single c (by rw [List.take_append]; exact List.mem_append_right _ member)
      exact ⟨position, by omega, upper, first.trans rest⟩

end Spells

/-- A letter of a word stands for itself. -/
theorem Spells.letter {a : Char} {rest letters : List Char} {stop stop' : Nat}
    (stands : before.rest = a :: rest) (inside : before.In input) (ends : stop ≤ before.pos)
    (later : Spells input ⟨before.pos + size a, rest⟩ (before.pos + size a) letters stop' after) :
    Spells input before stop (a :: letters) stop' after := by
  have consumed := Consumes.step stands
  have moves : before.pos < before.pos + size a := Nat.lt_add_of_pos_right a.utf8Size_pos
  have apart : ∀ count, 0 < count → (∀ c ∈ [a].take count, c.utf8Size = 1) →
      ∀ c ∈ [a], c.utf8Size = 1 := by
    intro count positive single
    rw [List.take_of_length_le positive] at single
    exact single
  refine Spells.letters_append moves ?_ apart later ends
  intro single
  obtain ⟨bytes, moved⟩ := inside.bytes consumed single
  exact ⟨bytes, Nat.le_of_eq moved.symm⟩

/-- An escaped letter stands for the backslash too. -/
theorem Spells.escaped {a b : Char} {rest letters : List Char} {stop stop' : Nat}
    (stands : before.rest = a :: b :: rest) (backslash : a = '\\') (inside : before.In input)
    (ends : stop ≤ before.pos)
    (later : Spells input ⟨before.pos + size a + size b, rest⟩ (before.pos + size a + size b)
      letters
      stop' after) :
    Spells input before stop (escapedInWord a b ++ letters) stop' after := by
  have consumed : Consumes [a, b] before ⟨before.pos + size a + size b, rest⟩ :=
    (Consumes.step stands).trans (Consumes.letter _ b rest)
  have moves : before.pos < before.pos + size a + size b :=
    Nat.lt_of_lt_of_le (Nat.lt_add_of_pos_right a.utf8Size_pos) (Nat.le_add_right _ _)
  have whole (single : b.utf8Size = 1) : Bytes input before.pos (before.pos + size a + size b) ∧
      before.pos + size a + size b = before.pos + 2 :=
    inside.bytes consumed (by
      intro c member
      rcases List.mem_cons.mp member with rfl | member
      · rw [backslash]
        rfl
      · rw [List.mem_singleton.mp member]
        exact single)
  unfold escapedInWord
  split
  · rename_i glob
    have single : b.utf8Size = 1 := by
      rcases glob with is | is | is <;> rw [show b = _ from is] <;> rfl
    obtain ⟨bytes, moved⟩ := whole single
    refine Spells.letters_append moves (fun _ => ⟨bytes, Nat.le_of_eq moved.symm⟩) ?_ later
      ends
    intro _ _ _ c member
    rcases List.mem_cons.mp member with rfl | member
    · rw [backslash]
      rfl
    · rw [List.mem_singleton.mp member]
      exact single
  · refine Spells.letters_append moves ?_ ?_ later ends
    · intro single
      obtain ⟨bytes, moved⟩ := whole (single b List.mem_cons_self)
      refine ⟨bytes, ?_⟩
      rw [List.length_singleton, moved]
      exact Nat.le_succ _
    · intro count positive single
      rw [List.take_of_length_le positive] at single
      exact single

theorem escapedInWord_ne_nil (a b : Char) : escapedInWord a b ≠ [] := by
  unfold escapedInWord
  split <;> exact List.cons_ne_nil _ _

theorem readWord_spells (word : List Char) (stop : Nat) {cursor : Cursor Char}
    (inside : cursor.In input) (le : stop ≤ cursor.pos) (ends : Text.Boundary stop input) :
    ∃ letters, (readWord word stop cursor).1 = word ++ letters ∧
      Spells input cursor stop letters (readWord word stop cursor).2.1
        (readWord word stop cursor).2.2 ∧
      (∀ c, cursor.peekChar = some c → isWordBoundary c = false → lineContinuation cursor = none →
        letters ≠ []) := by
  fun_induction readWord word stop cursor with
  | case1 word stop cursor stands =>
      refine ⟨[], (List.append_nil word).symm, Spells.nothing inside le ends, ?_⟩
      intro c peeked
      rw [Cursor.peekChar, stands] at peeked
      cases peeked
  | case2 word stop cursor a rest stands next continues ih =>
      obtain ⟨there, moves, bytes⟩ := lineContinuation_bytes inside continues
      obtain ⟨letters, same, spells, -⟩ := ih there (Nat.le_trans le moves) ends
      refine ⟨letters, same, spells.skip moves bytes, ?_⟩
      intro c _ _ none
      rw [continues] at none
      cases none
  | case3 word stop cursor a notContinued reached escapes b later stands other _ ih =>
      have there := inside.consumes ((Consumes.step stands).trans (Consumes.letter _ b later))
      obtain ⟨letters, same, spells, -⟩ := ih there (Nat.le_refl _) there.boundary
      exact ⟨escapedInWord a b ++ letters, by rw [same, List.append_assoc],
        Spells.escaped stands escapes inside le spells,
        fun _ _ _ _ => List.append_ne_nil_of_left_ne_nil (escapedInWord_ne_nil a b) letters⟩
  | case4 word stop cursor a notContinued reached escapes b later stands other _ ih =>
      have there := inside.consumes (Consumes.step stands)
      obtain ⟨letters, same, spells, -⟩ := ih there (Nat.le_refl _) there.boundary
      exact ⟨a :: letters, by rw [same, List.append_assoc]; rfl,
        Spells.letter stands inside le spells,
        fun _ _ _ _ => List.cons_ne_nil a letters⟩
  | case5 word stop cursor a notContinued reached escapes stands _ ih =>
      have there := inside.consumes (Consumes.step stands)
      obtain ⟨letters, same, spells, -⟩ := ih there (Nat.le_refl _) there.boundary
      exact ⟨a :: letters, by rw [same, List.append_assoc]; rfl,
        Spells.letter stands inside le spells,
        fun _ _ _ _ => List.cons_ne_nil a letters⟩
  | case6 word stop cursor a rest stands notContinued escapes boundary =>
      refine ⟨[], (List.append_nil word).symm, Spells.nothing inside le ends, ?_⟩
      intro c peeked inner
      rw [Cursor.peekChar, stands] at peeked
      cases peeked
      rw [boundary] at inner
      cases inner
  | case7 word stop cursor a rest stands notContinued reached escapes inner ih =>
      have there := inside.consumes (Consumes.step stands)
      obtain ⟨letters, same, spells, -⟩ := ih there (Nat.le_refl _) there.boundary
      exact ⟨a :: letters, by rw [same, List.append_assoc]; rfl,
        Spells.letter stands inside le spells,
        fun _ _ _ _ => List.cons_ne_nil a letters⟩

/-! ## The next token -/

theorem utf8Size_variable {c : Char} (valid : isValidVariableChar c = true) : c.utf8Size = 1 := by
  rw [Char.utf8Size_eq_one_iff]
  change (((decide (c.val ≥ 'A'.val ∧ c.val ≤ 'Z'.val) ||
    decide (c.val ≥ 'a'.val) && decide (c.val ≤ 'z'.val)) ||
    decide (c.val ≥ '0'.val) && decide (c.val ≤ '9'.val)) || c == '_') = true at valid
  simp only [Bool.or_eq_true, Bool.and_eq_true, decide_eq_true_eq, beq_iff_eq] at valid
  rcases valid with ((⟨-, upper⟩ | ⟨-, upper⟩) | ⟨-, upper⟩) | is
  · exact UInt32.le_trans upper (by decide)
  · exact UInt32.le_trans upper (by decide)
  · exact UInt32.le_trans upper (by decide)
  · rw [is]
    decide

theorem isValidVariableName_single {name : List Char} (valid : isValidVariableName name = true) :
    ∀ c ∈ name, c.utf8Size = 1 := by
  cases name with
  | nil => exact fun c none => absurd none List.not_mem_nil
  | cons first rest =>
      obtain ⟨starts, all⟩ := Bool.and_eq_true_iff.mp valid
      intro c member
      rcases List.mem_cons.mp member with rfl | member
      · apply utf8Size_variable
        unfold isValidVariableStart at starts
        unfold isValidVariableChar Char.isAlphanum
        rw [Bool.or_right_comm, starts, Bool.true_or]
      · exact utf8Size_variable (List.all_eq_true.mp all c member)

/-- The name of an assignment begins the word, and its characters are single bytes. -/
theorem tryParseAssignmentWord_front {word name value : List Char}
    (assigns : tryParseAssignmentWord word = some (name, value)) :
    word = name ++ '=' :: value ∧ ∀ c ∈ name, c.utf8Size = 1 := by
  unfold tryParseAssignmentWord at assigns
  dsimp only at assigns
  split at assigns
  · cases assigns
  · rename_i c rest found
    split at assigns
    · rename_i valid
      cases assigns
      have equals : c = '=' := by
        have outside := List.head?_dropWhile_not (· != '=') word
        rw [found] at outside
        simpa using outside
      subst equals
      refine ⟨?_, isValidVariableName_single valid⟩
      rw [← found]
      exact (List.takeWhile_append_dropWhile ..).symm
    · cases assigns

theorem ofDigitChars_lt (digits : List Char) (numeric : ∀ c ∈ digits, c.isDigit = true)
    (number : Nat) :
    Nat.ofDigitChars 10 digits number < (number + 1) * 10 ^ digits.length := by
  induction digits generalizing number with
  | nil => simp
  | cons c digits ih =>
      have upper : c.toNat ≤ 57 := (Char.isDigit_iff_toNat.mp (numeric c List.mem_cons_self)).2
      have digit : c.toNat - '0'.toNat ≤ 9 := Nat.sub_le_of_le_add upper
      rw [Nat.ofDigitChars_cons]
      refine Nat.lt_of_lt_of_le
        (ih (fun other member => numeric other (List.mem_cons_of_mem c member)) _) ?_
      rw [List.length_cons, Nat.pow_succ', ← Nat.mul_assoc]
      refine Nat.mul_le_mul_right _ ?_
      omega

/-- A file descriptor is not written with fewer digits than it has. -/
theorem fdPrefixLen_le {digits : List Char} {fd : Nat} (number : parseU32 digits = some fd) :
    fdPrefixLen (some fd) ≤ digits.length ∧ ∀ c ∈ digits, c.utf8Size = 1 := by
  unfold parseU32 at number
  split at number
  · cases number
  · rename_i some
    rw [not_or, not_not] at some
    obtain ⟨nonempty, all⟩ := some
    have numeric := List.all_eq_true.mp all
    dsimp only at number
    split at number
    · cases number
      have bound := ofDigitChars_lt digits numeric 0
      rw [Nat.zero_add, Nat.one_mul] at bound
      exact ⟨(Nat.length_toDigits_le_iff (by decide) (List.length_pos_iff.mpr nonempty)).mpr bound,
        fun c member => Text.utf8Size_digit (numeric c member)⟩
    · cases number

/-- The letters of a word are a token. -/
theorem Spells.word {word : List Char} {stop : Nat} (inside : before.In input)
    (spells : Spells input before before.pos word stop after) (some : word ≠ []) :
    Lexed input before.pos ⟨.word word, before.pos, stop⟩ after where
  start_eq := rfl
  placed := by
    have lt := spells.lt some
    refine ⟨⟨Nat.le_of_lt lt, inside.boundary, spells.boundary⟩, lt, ?_⟩
    intro name value assigns
    obtain ⟨is, single⟩ := tryParseAssignmentWord_front assigns
    have begins : word.take (name.length + 1) = name ++ ['='] := by
      rw [is, List.append_cons]
      exact List.take_left' (by simp)
    have long : name.length + 1 ≤ word.length := by
      rw [is]
      simp
    obtain ⟨position, lower, upper, bytes⟩ := spells.front _ (Nat.succ_pos _) long (by
      intro c member
      rw [begins] at member
      rcases List.mem_append.mp member with named | equals
      · exact single c named
      · rw [List.mem_singleton.mp equals]
        rfl)
    rw [Text.size_single single]
    exact ⟨bytes _ (by dsimp only; omega) (by dsimp only; omega), by dsimp only; omega⟩
  le := spells.le
  inside := spells.inside

theorem lexWord_lexed {c : Char} (inside : before.In input) (peeked : before.peekChar = some c)
    (inner : isWordBoundary c = false) (stands : lineContinuation before = none)
    (read : lexWord before = .ok (token, after)) : Lexed input before.pos token after := by
  obtain ⟨letters, same, spells, some⟩ :=
    readWord_spells [] before.pos inside (Nat.le_refl _) inside.boundary
  have nonempty := some c peeked inner stands
  unfold lexWord at read
  dsimp only at read
  rw [List.nil_append] at same
  generalize readWord [] before.pos before = result at same spells read
  obtain ⟨word, stop, cursor⟩ := result
  subst same
  dsimp only at spells nonempty read
  have whole := spells.word inside nonempty
  split at read
  · cases read
    exact whole
  · rename_i fd number
    obtain ⟨digits, single⟩ := fdPrefixLen_le number
    have letters : word.map Letter.char = word := List.map_id word
    rw [letters] at digits single
    obtain ⟨bytes, counted⟩ := spells.bytes single
    split at read
    · rename_i opens
      exact lexRedirectOut_lexed bytes (by omega) spells.inside opens read
    · split at read
      · rename_i opens
        exact lexRedirectIn_lexed bytes (by omega) spells.inside opens read
      · cases read
        exact whole

theorem lexToken_lexed {noPending : Bool} {c : Char} (inside : before.In input)
    (peeked : before.peekChar = some c) (notBlank : c ≠ ' ' ∧ c ≠ '\t')
    (stands : lineContinuation before = none)
    (read : lexToken noPending c before = .ok (token, after)) :
    Lexed input before.pos token after := by
  have advances := lexToken_advances peeked notBlank read
  have fixed {result : Token Char × Cursor Char} (lexed : Lexed input before.pos result.1 result.2)
      (read : (.ok result : Except (LexerError Char) (Token Char × Cursor Char)) =
        .ok (token, after)) : Lexed input before.pos token after := by
    cases read
    exact lexed
  rw [lexToken.eq_def] at read
  split at read
  · exact fixed (lexNewline_lexed inside peeked) read
  · cases read
    exact Lexed.whole rfl inside advances
  · exact fixed (lexAmpersand_lexed inside peeked) read
  · exact fixed (lexPipe_lexed inside peeked) read
  · exact fixed (lexSingle_lexed rfl inside peeked rfl) read
  · exact fixed (lexSingle_lexed rfl inside peeked rfl) read
  · exact fixed (lexSingle_lexed rfl inside peeked rfl) read
  · exact fixed (lexSingle_lexed rfl inside peeked rfl) read
  · exact fixed (lexSingle_lexed rfl inside peeked rfl) read
  · exact lexVariable_lexed inside peeked read
  · exact lexBacktickSubstitution_lexed inside peeked read
  · exact lexRedirectOut_lexed (Bytes.single inside.boundary) (Nat.le_refl _) inside peeked read
  · exact lexRedirectIn_lexed (Bytes.single inside.boundary) (Nat.le_refl _) inside peeked read
  · exact lexSingleQuote_lexed inside peeked read
  · exact lexDoubleQuote_lexed inside peeked read
  · exact lexWord_lexed inside peeked (by simp_all [isWordBoundary]) stands read

/-- The next token stands behind the cursor, and the cursor goes behind it. -/
theorem nextToken_lexed {noPending : Bool} (inside : before.In input)
    (read : nextToken noPending before = .ok (some (token, after))) :
    ∃ start, before.pos ≤ start ∧ Lexed input start token after := by
  obtain ⟨blank, skipped⟩ := skipWhitespace_consumes before
  obtain ⟨noSpace, noTab, stands⟩ := skipWhitespace_stops before
  have there := inside.consumes skipped
  refine ⟨_, skipped.pos_le, ?_⟩
  unfold nextToken at read
  dsimp only at read
  generalize skipWhitespace before = start at *
  split at read
  · cases read
  · rename_i c peeked
    rcases lexed : lexToken noPending c start with _ | ⟨found, reached⟩
    · rw [lexed] at read
      cases read
    · rw [lexed] at read
      cases read
      have notBlank : c ≠ ' ' ∧ c ≠ '\t' := by
        constructor
        · rintro rfl
          exact noSpace peeked
        · rintro rfl
          exact noTab peeked
      exact lexToken_lexed there peeked notBlank stands lexed

/-! ## All the tokens -/

/-- Tokens of the input that stand one behind the other. -/
structure Laid (input : List Char) (tokens : List (Token Char)) : Prop where
  placed : ∀ token ∈ tokens, token.Placed input
  sorted : tokens.Pairwise fun token later => token.span.stop ≤ later.span.start

theorem laid_cons {tokens : List (Token Char)} :
    Laid input (token :: tokens) ↔
      token.Placed input ∧ (∀ later ∈ tokens, token.span.stop ≤ later.span.start) ∧
        Laid input tokens := by
  constructor
  · rintro ⟨placed, sorted⟩
    rw [List.pairwise_cons] at sorted
    exact ⟨placed token List.mem_cons_self, sorted.1,
      fun later member => placed later (List.mem_cons_of_mem token member), sorted.2⟩
  · rintro ⟨first, before, placed, sorted⟩
    exact ⟨List.forall_mem_cons.mpr ⟨first, placed⟩, List.pairwise_cons.mpr ⟨before, sorted⟩⟩

theorem Laid.concat {tokens : List (Token Char)} (laid : Laid input tokens)
    (placed : token.Placed input)
    (behind : ∀ earlier ∈ tokens, earlier.span.stop ≤ token.span.start) :
    Laid input (tokens ++ [token]) where
  placed := by
    intro found member
    rcases List.mem_append.mp member with earlier | last
    · exact laid.placed found earlier
    · rw [List.mem_singleton.mp last]
      exact placed
  sorted := by
    rw [List.pairwise_append]
    refine ⟨laid.sorted, List.pairwise_singleton _ _, ?_⟩
    intro earlier member last is
    rw [List.mem_singleton.mp is]
    exact behind earlier member

theorem behind_next {tokens : List (Token Char)}
    (behind : ∀ token ∈ tokens, token.span.stop ≤ before.pos)
    (lower : before.pos ≤ start) (lexed : Lexed input start token after) :
    ∀ earlier ∈ tokens ++ [token], earlier.span.stop ≤ after.pos := by
  intro earlier member
  rcases List.mem_append.mp member with front | last
  · have lt := lexed.placed.lt
    have le := lexed.le
    have begins := lexed.start_eq
    have reached := behind earlier front
    omega
  · rw [List.mem_singleton.mp last]
    exact lexed.le

/-- The next token stands behind the others. -/
theorem Laid.next {tokens : List (Token Char)} (laid : Laid input tokens)
    (behind : ∀ token ∈ tokens, token.span.stop ≤ before.pos) (lower : before.pos ≤ start)
    (lexed : Lexed input start token after) : Laid input (tokens ++ [token]) := by
  apply laid.concat lexed.placed
  intro earlier member
  rw [lexed.start_eq]
  exact Nat.le_trans (behind earlier member) lower

theorem Token.withBody_span (token : Token Char) (body : List Char) :
    (token.withBody body).span = token.span := by
  unfold Token.withBody
  split <;> rfl

theorem Token.Placed.withBody (placed : token.Placed input) (body : List Char) :
    (token.withBody body).Placed input := by
  obtain ⟨kind, span⟩ := token
  cases kind with
  | hereDoc fd stripTabs delimiter old quoted =>
      exact ⟨placed.on, placed.lt, fun name value assigns => by cases assigns⟩
  | _ => exact placed

theorem forall_mem_modify {A : Type} {P : A → Prop} {change : A → A}
    (keeps : ∀ item, P item → P (change item)) {items : List A} (all : ∀ item ∈ items, P item)
    (index : Nat) : ∀ item ∈ items.modify index change, P item := by
  induction items generalizing index with
  | nil => simp
  | cons first items ih =>
      rw [List.forall_mem_cons] at all
      cases index with
      | zero =>
          rw [List.modify_zero_cons, List.forall_mem_cons]
          exact ⟨keeps first all.1, all.2⟩
      | succ index =>
          rw [List.modify_succ_cons, List.forall_mem_cons]
          exact ⟨all.1, ih all.2 index⟩

/-- The bodies of here-documents leave the tokens where they are. -/
theorem Laid.modify {tokens : List (Token Char)} (laid : Laid input tokens) (index : Nat)
    (body : List Char) : Laid input (tokens.modify index (·.withBody body)) := by
  induction tokens generalizing index with
  | nil => simpa using laid
  | cons first tokens ih =>
      obtain ⟨placed, before, rest⟩ := laid_cons.mp laid
      cases index with
      | zero =>
          rw [List.modify_zero_cons, laid_cons, Token.withBody_span]
          exact ⟨placed.withBody body, before, rest⟩
      | succ index =>
          rw [List.modify_succ_cons, laid_cons]
          refine ⟨placed, ?_, ih rest index⟩
          apply forall_mem_modify _ before
          intro later behind
          rw [Token.withBody_span]
          exact behind

theorem capturePendingHeredocs_laid {tokens found : List (Token Char)}
    {pending : List (PendingHereDoc Char)} {stop : Nat} (laid : Laid input tokens)
    (behind : ∀ token ∈ tokens, token.span.stop ≤ stop)
    (read : capturePendingHeredocs tokens before pending = .ok (found, after)) :
    Laid input found ∧ ∀ token ∈ found, token.span.stop ≤ stop := by
  induction pending generalizing tokens before with
  | nil =>
      cases read
      exact ⟨laid, behind⟩
  | cons first pending ih =>
      rw [capturePendingHeredocs] at read
      split at read
      · cases read
      · refine ih (laid.modify _ _) ?_ read
        apply forall_mem_modify _ behind
        intro token le
        rw [Token.withBody_span]
        exact le

theorem tokenizeFrom_laid {pending : List (PendingHereDoc Char)} {tokens found : List (Token Char)}
    (inside : before.In input) (laid : Laid input tokens)
    (behind : ∀ token ∈ tokens, token.span.stop ≤ before.pos)
    (read : tokenizeFrom pending tokens before = .ok found) : Laid input found := by
  fun_induction tokenizeFrom pending tokens before with
  | case1 => cases read
  | case2 tokens before ended =>
      cases read
      exact laid
  | case3 => cases read
  | case4 => cases read
  | case5 pending tokens before token after next newline captured reached captures ih =>
      obtain ⟨start, lower, lexed⟩ := nextToken_lexed inside next
      obtain ⟨text, consumed⟩ := capturePendingHeredocs_consumes captures
      obtain ⟨laid', behind'⟩ := capturePendingHeredocs_laid (laid.next behind lower lexed)
        (behind_next behind lower lexed) captures
      exact ih (lexed.inside.consumes consumed) laid' (fun token member =>
        Nat.le_trans (behind' token member) consumed.pos_le) read
  | case6 pending tokens before token after next other ih =>
      obtain ⟨start, lower, lexed⟩ := nextToken_lexed inside next
      exact ih lexed.inside (laid.next behind lower lexed) (behind_next behind lower lexed) read

/-- The tokens of an input stand one behind the other. -/
theorem tokenize_laid {tokens : List (Token Char)} (read : tokenize input = .ok tokens) :
    Laid input tokens :=
  tokenizeFrom_laid (Cursor.In.begin input)
    ⟨fun _ none => absurd none List.not_mem_nil, List.Pairwise.nil⟩
    (fun _ none => absurd none List.not_mem_nil) read

end Tokens

end OddJobs.Shell
