import OddJobs.Engine.JobCreate
import OddJobs.Shell.Nesting

/-!
# Locals that run commands

A local whose template holds `$(...)` is evaluated at once.  Its value is handed to bash between
double quotes, or without the `$(` and the `)` around it where the value seems to be a single
substitution.
-/

namespace OddJobs

open Library Shell

namespace EagerLocal

/-! ## Between double quotes -/

/-- A piece of a text that stands between double quotes. -/
inductive Piece where
  | text (content : List Char)
  | substitution (command : List Char)
  deriving DecidableEq, Repr

def unescaped (c : Char) : List Char :=
  if c = '\n' then []
  else if c = '$' ∨ c = '`' ∨ c = '\"' ∨ c = '\\' then [c]
  else ['\\', c]

def beginsExpansion : List Char → Bool
  | [] => false
  | c :: _ => isValidVariableChar c || "(\x7b[?$#@*!-".toList.contains c

/-- A text between double quotes that is made of literal text and substitutions. -/
inductive Quoted : List Char → List Piece → Prop where
  | nil : Quoted [] []
  | plain {c : Char} {rest : List Char} {pieces : List Piece}
      (plain : c ∉ ['\"', '\\', '$', '`']) (later : Quoted rest pieces) :
      Quoted (c :: rest) (.text [c] :: pieces)
  | escaped (c : Char) {rest : List Char} {pieces : List Piece} (later : Quoted rest pieces) :
      Quoted ('\\' :: c :: rest) (.text (unescaped c) :: pieces)
  | dollar {rest : List Char} {pieces : List Piece} (alone : beginsExpansion rest = false)
      (later : Quoted rest pieces) : Quoted ('$' :: rest) (.text ['$'] :: pieces)
  | substitution {command rest : List Char} {pieces : List Piece} (closed : Closed command)
      (later : Quoted rest pieces) :
      Quoted ('$' :: '(' :: (command ++ ')' :: rest)) (.substitution command :: pieces)

def Piece.expand (output : List Char → List Char) : Piece → List Char
  | .text content => content
  | .substitution command => Text.trimNewlines (output command)

def expand (output : List Char → List Char) (pieces : List Piece) : List Char :=
  pieces.flatMap (Piece.expand output)

theorem closed_unique {command other rest others : List Char} (closed : Closed command)
    (closes : Closed other) (same : command ++ ')' :: rest = other ++ ')' :: others) :
    command = other ∧ rest = others := by
  have first := readBalancedContent_closed closed 0 0 rest
  have second := readBalancedContent_closed closes 0 0 others
  rw [same, second] at first
  injection first with read
  obtain ⟨contents, cursors⟩ := Prod.mk.inj read
  exact ⟨contents.symm, (Cursor.mk.inj cursors).2.symm⟩

theorem Quoted.unique {text : List Char} {pieces others : List Piece} (quoted : Quoted text pieces)
    (other : Quoted text others) : pieces = others := by
  induction quoted generalizing others with
  | nil =>
      cases other
      rfl
  | plain plain later ih =>
      cases other with
      | plain _ rest => rw [ih rest]
      | escaped => simp at plain
      | dollar => simp at plain
      | substitution => simp at plain
  | escaped c later ih =>
      cases other with
      | plain plain => simp at plain
      | escaped _ rest => rw [ih rest]
  | dollar alone later ih =>
      cases other with
      | plain plain => simp at plain
      | dollar _ rest => rw [ih rest]
      | substitution => cases alone
  | @substitution command rest pieces closed later ih =>
      generalize stands : command ++ ')' :: rest = text at other
      cases other with
      | plain plain => simp at plain
      | dollar alone => cases alone
      | substitution closes after =>
          obtain ⟨rfl, rfl⟩ := closed_unique closed closes stands
          rw [ih after]

/-- The first substitution behind white space is one of the pieces. -/
theorem Quoted.opening {space rest : List Char} {pieces : List Piece}
    (blank : ∀ c ∈ space, Text.isWhiteSpace c = true)
    (quoted : Quoted (space ++ '$' :: '(' :: rest) pieces) :
    ∃ command tail, rest = command ++ ')' :: tail ∧ Closed command ∧
      .substitution command ∈ pieces := by
  induction space generalizing pieces with
  | nil =>
      rw [List.nil_append] at quoted
      cases quoted with
      | plain plain => simp at plain
      | dollar alone => cases alone
      | substitution closed => exact ⟨_, _, rfl, closed, List.mem_cons_self⟩
  | cons c space ih =>
      obtain ⟨white, blank⟩ := List.forall_mem_cons.mp blank
      rw [List.cons_append] at quoted
      generalize stands : space ++ '$' :: '(' :: rest = text at quoted
      cases quoted with
      | plain _ later =>
          obtain ⟨command, tail, is, closed, member⟩ := ih blank (stands ▸ later)
          exact ⟨command, tail, is, closed, List.mem_cons_of_mem _ member⟩
      | escaped => cases white
      | dollar => cases white
      | substitution => cases white

/-! ## What is handed to bash -/

inductive ShellCommand where
  /-- The command inside a wrapper. -/
  | inner (command : List Char)
  /-- A `printf` of the value between double quotes. -/
  | printf (value : List Char)
  deriving DecidableEq, Repr

namespace ShellCommand

def text : ShellCommand → String
  | inner command => String.ofList command
  | printf value => "printf '%s' \"" ++ String.ofList value ++ "\""

inductive Prints (output : List Char → List Char) : ShellCommand → List Char → Prop where
  | inner (command : List Char) : Prints output (.inner command) (output command)
  | printf {value : List Char} {pieces : List Piece} (quoted : Quoted value pieces) :
      Prints output (.printf value) (expand output pieces)

/-- Whatever commands print, the local has the double-quoted expansion of the text as its value. -/
def Denotes (command : ShellCommand) (text : List Char) : Prop :=
  ∃ pieces, Quoted text pieces ∧ ∀ output printed, Prints output command printed →
    Text.trimNewlines printed = Text.trimNewlines (expand output pieces)

end ShellCommand

def wrapped (text : List Char) : Bool :=
  "$(".toList.isPrefixOf text && text.getLast? == some ')'

def shellCommand (value : List Char) : ShellCommand :=
  if wrapped (Text.trim value) then .inner ((Text.trim value).drop 2).dropLast else .printf value

theorem localCommand_eq (value : String) :
    localCommand value = (shellCommand value.toList).text := by
  rw [shellCommand, apply_ite ShellCommand.text, ShellCommand.text, ShellCommand.text,
    String.ofList_toList]
  rfl

/-- The parenthesis that closes the first substitution is the last character. -/
def ClosesLast (text : List Char) : Prop :=
  ∃ content position, readBalancedContent '(' ')' 0 ⟨2, text.drop 2⟩ = .ok (content, ⟨position, []⟩)

theorem shape_of_wrapped {text : List Char} (wraps : wrapped text = true) :
    ∃ inner, text = '$' :: '(' :: (inner ++ [')']) := by
  obtain ⟨begins, ends⟩ := Bool.and_eq_true_iff.mp wraps
  obtain ⟨rest, rfl⟩ := List.isPrefixOf_iff_prefix.mp begins
  cases rest using List.reverseRecOn with
  | nil => cases ends
  | append_singleton inner last =>
      rw [← List.append_assoc, List.getLast?_concat] at ends
      have final : last = ')' := Option.some.inj (beq_iff_eq.mp ends)
      exact ⟨inner, by rw [final]; rfl⟩

/-- The content of a substitution that closes last is what stands inside the wrapper. -/
theorem closesLast_iff {inner : List Char} :
    ClosesLast ('$' :: '(' :: (inner ++ [')'])) ↔ Closed inner := by
  constructor
  · rintro ⟨content, position, read⟩
    obtain ⟨text, stands, -, closed⟩ := closed_of_readBalancedFrom read
    rw [show inner = text from (List.append_inj_left' stands rfl)]
    exact closed
  · exact fun closed => ⟨inner, _, readBalancedContent_closed closed 0 2 []⟩

/-! ## What the command denotes -/

theorem trimNewlines_idem (text : List Char) :
    Text.trimNewlines (Text.trimNewlines text) = Text.trimNewlines text := by
  rw [Text.trimNewlines, Text.trimNewlines, List.reverse_reverse, List.dropWhile_idempotent]

theorem trimNewlines_ne_nil {text : List Char} {c : Char} (member : c ∈ text)
    (visible : c ≠ '\n') : Text.trimNewlines text ≠ [] := by
  intro none
  have all := List.dropWhile_eq_nil_iff.mp (List.reverse_eq_nil_iff.mp none) c
    (List.mem_reverse.mpr member)
  exact visible (beq_iff_eq.mp all)

/-- A command that was cut across substitutions denotes no text that begins with the first. -/
theorem inner_not_denotes {inner space rest : List Char} (cut : ¬Closed inner)
    (blank : ∀ c ∈ space, Text.isWhiteSpace c = true) :
    ¬(ShellCommand.inner inner).Denotes (space ++ '$' :: '(' :: rest) := by
  rintro ⟨pieces, quoted, denotes⟩
  obtain ⟨command, tail, -, closed, member⟩ := quoted.opening blank
  have other : inner ≠ command := fun same => cut (same ▸ closed)
  -- The first command prints a letter, and no other command prints anything.
  let output (asked : List Char) : List Char := if asked = command then ['x'] else []
  have same := denotes output _ (.inner inner)
  have silent : output inner = [] := if_neg other
  have letter : 'x' ∈ expand output pieces :=
    List.mem_flatMap.mpr ⟨_, member, by simp [Piece.expand, output, Text.trimNewlines]⟩
  rw [silent] at same
  exact trimNewlines_ne_nil letter (by decide) same.symm

theorem inner_denotes {inner : List Char} (closed : Closed inner) :
    (ShellCommand.inner inner).Denotes ('$' :: '(' :: (inner ++ [')'])) := by
  refine ⟨_, .substitution closed .nil, fun output printed prints => ?_⟩
  cases prints
  simp [expand, Piece.expand, trimNewlines_idem]

theorem printf_denotes {value : List Char} {pieces : List Piece} (quoted : Quoted value pieces) :
    (ShellCommand.printf value).Denotes value := by
  refine ⟨pieces, quoted, fun output printed prints => ?_⟩
  cases prints with
  | printf read => rw [read.unique quoted]

/-- The command that is handed to bash denotes the double-quoted expansion of the value, or of the
trimmed value, if and only if a value that begins with `$(` and ends with `)` closes its first
substitution there. -/
theorem shellCommand_denotes_iff {value : String} {pieces : List Piece}
    (made : Quoted value.toList pieces) :
    (shellCommand value.toList).Denotes value.toList ∨
        (shellCommand value.toList).Denotes (Text.trim value.toList) ↔
      (wrapped (Text.trim value.toList) = true → ClosesLast (Text.trim value.toList)) := by
  rw [shellCommand]
  split
  · rename_i wraps
    obtain ⟨inner, shape⟩ := shape_of_wrapped wraps
    have stripped : ((Text.trim value.toList).drop 2).dropLast = inner := by
      rw [shape]
      simp
    rw [stripped]
    constructor
    · rintro denotes -
      rw [shape, closesLast_iff]
      by_contra cut
      obtain ⟨before, after, split, blank, -⟩ := Text.exists_trim value.toList
      rw [shape, List.append_assoc] at split
      rcases denotes with whole | trimmed
      · rw [split] at whole
        exact inner_not_denotes cut blank whole
      · rw [shape] at trimmed
        exact @inner_not_denotes inner [] _ cut (List.forall_mem_nil _) trimmed
    · intro closes
      have closed := closesLast_iff.mp (shape ▸ closes wraps)
      rw [shape]
      exact .inr (inner_denotes closed)
  · rename_i bare
    exact iff_of_true (.inl (printf_denotes made)) fun wraps => absurd wraps bare

/-- A literal text between two substitutions. -/
theorem Quoted.literal {text rest : List Char} {pieces : List Piece}
    (plain : ∀ c ∈ text, c ∉ ['\"', '\\', '$', '`']) (later : Quoted rest pieces) :
    ∃ pieces, Quoted (text ++ rest) pieces := by
  induction text with
  | nil => exact ⟨pieces, later⟩
  | cons c text ih =>
      obtain ⟨outside, plain⟩ := List.forall_mem_cons.mp plain
      obtain ⟨pieces, quoted⟩ := ih plain
      exact ⟨_, quoted.plain outside⟩

theorem date_quoted : Quoted "$(date +$(form))".toList [.substitution "date +$(form)".toList] :=
  @Quoted.substitution "date +$(form)".toList [] [] rfl .nil

/-- The wrapper of a substitution that holds another is taken off. -/
theorem date_denotes :
    (shellCommand "$(date +$(form))".toList).Denotes "$(date +$(form))".toList ∨
      (shellCommand "$(date +$(form))".toList).Denotes (Text.trim "$(date +$(form))".toList) :=
  (shellCommand_denotes_iff date_quoted).mpr fun _ => ⟨"date +$(form)".toList, 16, rfl⟩

/-- Two substitutions are cut into one command. -/
theorem two_substitutions_cut :
    ¬∀ (value : String) (tokens : List (Token Char)) (pieces : List Piece),
      tokenize value.toList = .ok tokens → Quoted value.toList pieces →
        (shellCommand value.toList).Denotes value.toList ∨
          (shellCommand value.toList).Denotes (Text.trim value.toList) := by
  intro denotes
  have second : Quoted "$(b)".toList [.substitution ['b']] :=
    @Quoted.substitution ['b'] [] [] rfl .nil
  obtain ⟨pieces, later⟩ := @Quoted.literal " and ".toList _ _ (by simp) second
  have made : Quoted "$(a) and $(b)".toList (.substitution ['a'] :: pieces) :=
    @Quoted.substitution ['a'] _ _ rfl later
  have cut : ¬Closed "a) and $(b".toList := by decide
  have read := denotes "$(a) and $(b)" _ _ (by with_unfolding_all rfl) made
  have blank : ∀ c ∈ ([] : List Char), Text.isWhiteSpace c = true := List.forall_mem_nil _
  rcases read with whole | trimmed
  · exact inner_not_denotes cut blank whole
  · exact inner_not_denotes cut blank trimmed

end EagerLocal

end OddJobs
