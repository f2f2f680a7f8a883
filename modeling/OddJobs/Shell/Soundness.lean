import OddJobs.Shell.Contents
import OddJobs.Shell.Grammar

/-!
# What the parser builds

Whatever the parser returns is a tree of the grammar for the tokens it has consumed.
-/

namespace OddJobs.Shell

open Library

def Tokens.lexemes (tokens : Tokens) : List Lexeme :=
  Shell.lexemes (tokens.rest.map ParsedToken.token)

/-- The lexemes read from one position to another. -/
structure Reads (before : Tokens) (front : List Lexeme) (after : Tokens) : Prop where
  lexemes_eq : before.lexemes = front ++ after.lexemes
  suffix : after.rest <:+ before.rest

namespace Reads

variable {before middle after : Tokens} {front later : List Lexeme}

theorem nothing (tokens : Tokens) : Reads tokens [] tokens := ⟨rfl, List.suffix_refl _⟩

theorem trans (first : Reads before front middle) (second : Reads middle later after) :
    Reads before (front ++ later) after where
  lexemes_eq := by rw [first.lexemes_eq, second.lexemes_eq, List.append_assoc]
  suffix := second.suffix.trans first.suffix

/-- A token that is not of a word is a lexeme. -/
theorem mark {token : ParsedToken} {rest : List ParsedToken}
    (stands : before.rest = token :: rest) (other : token.kind.isWordPart = false) :
    Reads before [.mark token.token] before.advance := by
  have advanced : before.advance.rest = rest := by rw [Tokens.advance, stands]
  constructor
  · rw [Tokens.lexemes, Tokens.lexemes, stands, advanced, List.map_cons, Shell.lexemes,
      if_neg (by rw [other]; exact Bool.false_ne_true)]
    rfl
  · rw [advanced, stands]
    exact List.suffix_cons token rest

end Reads

/-! ## Words -/

section Soundness

variable (Body : List Char → CommandList → Prop)

/-- What a token is converted to are parts that it brings to a word. -/
def ParsedToken.Sound (token : ParsedToken) : Prop :=
  ∀ parts, token.parts = .ok parts → token.kind.isWordPart = true → PartsOf Body token.kind parts

variable {Body}

theorem ParsedToken.isWordPart_of_parts {token : ParsedToken} {part : WordPart Char CommandList}
    {more : List (WordPart Char CommandList)} (converted : token.parts = .ok (part :: more)) :
    token.kind.isWordPart = true := by
  by_contra other
  have none := token.parts_eq_nil.mpr (Bool.eq_false_iff.mpr other)
  rw [converted] at none
  cases none

theorem ParsedToken.not_isWordPart_of_parts {token : ParsedToken} (converted : token.parts = .ok []) :
    token.kind.isWordPart = false := token.parts_eq_nil.mp converted

theorem collectAdjacentParts_sound {stop stop' : Nat} {parts parts' : List (WordPart Char CommandList)}
    {before after : Tokens} (sound : ∀ token ∈ before.rest, token.Sound Body)
    (parsed : collectAdjacentParts stop parts before = .ok ((stop', parts'), after)) :
    ∃ more, parts' = parts ++ more ∧
      RunOf Body (adjacentRun stop (before.rest.map ParsedToken.token)).1 more ∧
      after.rest.map ParsedToken.token =
        (adjacentRun stop (before.rest.map ParsedToken.token)).2 ∧
      after.rest <:+ before.rest := by
  fun_induction collectAdjacentParts stop parts before with
  | case1 stop parts before stands =>
      cases parsed
      refine ⟨[], (List.append_nil _).symm, ?_, ?_, List.suffix_refl _⟩
      · rw [stands]
        exact RunOf.nil
      · rw [stands]
        rfl
  | case2 => cases parsed
  | case3 parts before token rest stands converted =>
      cases parsed
      have other := ParsedToken.not_isWordPart_of_parts converted
      have ends : adjacentRun token.span.start ((token :: rest).map ParsedToken.token) =
          ([], (token :: rest).map ParsedToken.token) := by
        rw [List.map_cons, adjacentRun, if_neg]
        rintro ⟨isPart, -⟩
        exact Bool.false_ne_true (other.symm.trans isPart)
      refine ⟨[], (List.append_nil _).symm, ?_, ?_, List.suffix_refl _⟩
      · rw [stands, ends]
        exact RunOf.nil
      · rw [stands, ends]
  | case4 parts before token rest stands part more converted ih =>
      have isPart := ParsedToken.isWordPart_of_parts converted
      have advanced : before.advance.rest = rest := by rw [Tokens.advance, stands]
      have goesOn : adjacentRun token.span.start ((token :: rest).map ParsedToken.token) =
          (token.token :: (adjacentRun token.span.stop (rest.map ParsedToken.token)).1,
            (adjacentRun token.span.stop (rest.map ParsedToken.token)).2) := by
        rw [List.map_cons, adjacentRun, if_pos ⟨isPart, rfl⟩]
      obtain ⟨later, same, run, left, suffix⟩ := ih
        (fun other member => sound other (by
          rw [stands]
          rw [advanced] at member
          exact List.mem_cons_of_mem token member)) parsed
      rw [advanced] at run left suffix
      refine ⟨part :: more ++ later, by rw [same, List.append_assoc], ?_, ?_, ?_⟩
      · rw [stands, goesOn]
        refine RunOf.cons (sound token ?_ _ converted isPart) run
        rw [stands]
        exact List.mem_cons_self
      · rw [left, stands, goesOn]
      · rw [stands]
        exact suffix.trans (List.suffix_cons token rest)
  | case5 stop parts before token rest stands apart =>
      cases parsed
      have ends : adjacentRun stop' ((token :: rest).map ParsedToken.token) =
          ([], (token :: rest).map ParsedToken.token) := by
        rw [List.map_cons, adjacentRun, if_neg fun held => apart held.2]
      refine ⟨[], (List.append_nil _).symm, ?_, ?_, List.suffix_refl _⟩
      · rw [stands, ends]
        exact RunOf.nil
      · rw [stands, ends]

/-- A token of a word and what is adjacent to it are a lexeme. -/
theorem Reads.word {before after : Tokens} {token : ParsedToken} {rest : List ParsedToken}
    (stands : before.rest = token :: rest) (isPart : token.kind.isWordPart = true)
    (left : after.rest.map ParsedToken.token =
      (adjacentRun token.span.stop (rest.map ParsedToken.token)).2)
    (suffix : after.rest <:+ rest) :
    Reads before [.word (token.token ::
      (adjacentRun token.span.stop (rest.map ParsedToken.token)).1)] after := by
  constructor
  · rw [Tokens.lexemes, Tokens.lexemes, stands, left, List.map_cons, Shell.lexemes, if_pos isPart]
    rfl
  · rw [stands]
    exact suffix.trans (List.suffix_cons token rest)

/-- Where a word is read, it is the next lexeme; where none is, the next lexeme is not a word. -/
theorem parseWord_sound {before after : Tokens} {found : Option (Word CommandList)}
    (sound : ∀ token ∈ before.rest, token.Sound Body)
    (parsed : parseWord before = .ok (found, after)) :
    (∃ word run, found = some word ∧ Reads before [.word run] after ∧ RunOf Body run word.parts ∧
        (∀ token rest, before.rest = token :: rest → run.head? = some token.token)) ∨
      (found = none ∧ after = before ∧
        ∀ token rest, before.rest = token :: rest → token.kind.isWordPart = false) := by
  rw [parseWord] at parsed
  split at parsed
  · rename_i stands
    cases parsed
    refine Or.inr ⟨rfl, rfl, fun token rest some => ?_⟩
    rw [stands] at some
    cases some
  · rename_i token rest stands
    have advanced : before.advance.rest = rest := by rw [Tokens.advance, stands]
    split at parsed
    · cases parsed
    · rename_i converted
      cases parsed
      refine Or.inr ⟨rfl, rfl, fun other more some => ?_⟩
      rw [stands] at some
      cases some
      exact ParsedToken.not_isWordPart_of_parts converted
    · rename_i part more converted
      obtain ⟨⟨⟨stop, parts⟩, reached⟩, collected, returned⟩ := bind_eq_ok.mp parsed
      cases returned
      have isPart := ParsedToken.isWordPart_of_parts converted
      obtain ⟨later, rfl, run, left, suffix⟩ := collectAdjacentParts_sound
        (fun other member => sound other (by
          rw [stands]
          rw [advanced] at member
          exact List.mem_cons_of_mem token member)) collected
      rw [advanced] at run left suffix
      refine Or.inl ⟨_, _, rfl, Reads.word stands isPart left suffix, ?_, ?_⟩
      · refine RunOf.cons (sound token ?_ _ converted isPart) run
        rw [stands]
        exact List.mem_cons_self
      · intro other others some
        rw [stands] at some
        cases some
        rfl

theorem Reads.sound {before after : Tokens} {front : List Lexeme} (reads : Reads before front after)
    (sound : ∀ token ∈ before.rest, token.Sound Body) :
    ∀ token ∈ after.rest, token.Sound Body :=
  fun token member => sound token (reads.suffix.subset member)

/-! ## Redirections -/

theorem requireWord_sound {expected : String} {before after : Tokens} {word : Word CommandList}
    (sound : ∀ token ∈ before.rest, token.Sound Body)
    (parsed : requireWord expected before = .ok (word, after)) :
    ∃ run, Reads before [.word run] after ∧ RunOf Body run word.parts := by
  obtain ⟨⟨found, reached⟩, read, returned⟩ := bind_eq_ok.mp parsed
  rcases parseWord_sound sound read with ⟨other, run, rfl, reads, of, -⟩ | ⟨rfl, -, -⟩
  · cases returned
    exact ⟨run, reads, of⟩
  · cases returned

theorem parseTarget_sound {expected : String} {build : Word CommandList → Redirection CommandList}
    {before after : Tokens} {redirection : Redirection CommandList}
    (sound : ∀ token ∈ before.rest, token.Sound Body)
    (parsed : parseTarget expected build before = .ok (redirection, after)) :
    ∃ run word, Reads before [.word run] after ∧ RunOf Body run word.parts ∧
      redirection = build word := by
  obtain ⟨⟨word, reached⟩, read, returned⟩ := bind_eq_ok.mp parsed
  obtain ⟨run, reads, of⟩ := requireWord_sound sound read
  cases returned
  exact ⟨run, word, reads, of, rfl⟩

theorem parseRedirection_sound {token : ParsedToken} {rest : List ParsedToken}
    {before after : Tokens} {redirection : Redirection CommandList}
    (sound : ∀ token ∈ before.rest, token.Sound Body) (stands : before.rest = token :: rest)
    (redirects : token.kind.isRedirection = true)
    (parsed : parseRedirection token.kind before.advance = .ok (redirection, after)) :
    ∃ front, Reads before front after ∧ RedirectionOf Body front redirection := by
  have operator := Reads.mark stands (TokenKind.isRedirection_notWordPart redirects)
  have within := operator.sound sound
  obtain ⟨⟨kind, span⟩, parts, proper⟩ := token
  cases kind with
  | redirectOut fd =>
      rw [parseRedirection] at parsed
      obtain ⟨run, word, reads, of, rfl⟩ := parseTarget_sound within parsed
      exact ⟨_, operator.trans reads, RedirectionOf.output of⟩
  | redirectAppend fd =>
      rw [parseRedirection] at parsed
      obtain ⟨run, word, reads, of, rfl⟩ := parseTarget_sound within parsed
      exact ⟨_, operator.trans reads, RedirectionOf.append of⟩
  | redirectIn fd =>
      obtain ⟨run, word, reads, of, rfl⟩ := parseTarget_sound within parsed
      exact ⟨_, operator.trans reads, RedirectionOf.input of⟩
  | hereDoc fd stripTabs delimiter body quoted =>
      cases parsed
      exact ⟨_, operator, RedirectionOf.hereDoc⟩
  | hereString fd =>
      obtain ⟨run, word, reads, of, rfl⟩ := parseTarget_sound within parsed
      exact ⟨_, operator.trans reads, RedirectionOf.hereString of⟩
  | redirectBoth append =>
      obtain ⟨run, word, reads, of, rfl⟩ := parseTarget_sound within parsed
      exact ⟨_, operator.trans reads, RedirectionOf.both of⟩
  | duplicateFd source target output =>
      cases parsed
      exact ⟨_, operator, RedirectionOf.duplicate⟩
  | _ => cases redirects

theorem parseRedirections_sound {redirections redirections' : List (Redirection CommandList)}
    {stop stop' : Nat} {before after : Tokens}
    (sound : ∀ token ∈ before.rest, token.Sound Body)
    (parsed : parseRedirections redirections stop before = .ok ((redirections', stop'), after)) :
    ∃ front more, redirections' = redirections ++ more ∧ Reads before front after ∧
      RedirectionsOf Body front more := by
  fun_induction parseRedirections redirections stop before with
  | case1 redirections stop before stands =>
      cases parsed
      exact ⟨[], [], (List.append_nil _).symm, Reads.nothing _, RedirectionsOf.nil⟩
  | case2 => cases parsed
  | case3 redirections stop before token rest stands redirects redirection middle read ih =>
      obtain ⟨operator, reads, of⟩ := parseRedirection_sound sound stands redirects read
      obtain ⟨front, more, rfl, later, all⟩ := ih (reads.sound sound) parsed
      exact ⟨operator ++ front, redirection :: more, List.append_assoc _ _ _, reads.trans later,
        RedirectionsOf.cons of all⟩
  | case4 redirections stop before token rest stands other =>
      cases parsed
      exact ⟨[], [], (List.append_nil _).symm, Reads.nothing _, RedirectionsOf.nil⟩

/-! ## Simple commands -/

theorem parseEnv_sound {env env' : List (EnvAssignment CommandList)} {before after : Tokens}
    (sound : ∀ token ∈ before.rest, token.Sound Body)
    (parsed : parseEnv env before = .ok (env', after)) :
    ∃ front more, env' = env ++ more ∧ Reads before front after ∧ EnvOf Body front more ∧
      ∀ token rest, after.rest = token :: rest → token.kind.assignment = none := by
  fun_induction parseEnv env before with
  | case1 env before word span converted proper rest stands plain =>
      cases parsed
      refine ⟨[], [], (List.append_nil _).symm, Reads.nothing _, EnvOf.nil, ?_⟩
      intro token others some
      rw [stands] at some
      cases some
      exact plain
  | case2 => cases parsed
  | case3 env before word span converted proper rest stands name value assigns stop parts middle
      collected start ih =>
      have advanced : before.advance.rest = rest := by rw [Tokens.advance, stands]
      obtain ⟨adjacent, rfl, run, left, suffix⟩ := collectAdjacentParts_sound
        (fun other member => sound other (by
          rw [stands]
          rw [advanced] at member
          exact List.mem_cons_of_mem _ member)) collected
      rw [advanced] at run left suffix
      have reads : Reads before _ middle := Reads.word stands rfl left suffix
      obtain ⟨front, more, rfl, later, all, ends⟩ := ih (reads.sound sound) parsed
      exact ⟨_, _, List.append_assoc _ _ _, reads.trans later,
        EnvOf.cons (AssignmentOf.mk assigns run) all, ends⟩
  | case4 env before other =>
      cases parsed
      refine ⟨[], [], (List.append_nil _).symm, Reads.nothing _, EnvOf.nil, ?_⟩
      rintro ⟨⟨kind, span⟩, converted, proper⟩ rest stands
      cases kind with
      | word word => exact (other word span converted proper rest stands).elim
      | _ => rfl

theorem parseTail_sound {tail tail' : CommandTail} {before after : Tokens}
    (sound : ∀ token ∈ before.rest, token.Sound Body)
    (parsed : parseTail tail before = .ok (tail', after)) :
    ∃ front args redirections, tail'.args = tail.args ++ args ∧
      tail'.redirections = tail.redirections ++ redirections ∧ Reads before front after ∧
      TailOf Body front args redirections := by
  fun_induction parseTail tail before with
  | case1 tail before stands =>
      cases parsed
      exact ⟨[], [], [], (List.append_nil _).symm, (List.append_nil _).symm, Reads.nothing _,
        TailOf.nil⟩
  | case2 => cases parsed
  | case3 tail before token rest stands redirects redirection middle read ih =>
      obtain ⟨operator, reads, of⟩ := parseRedirection_sound sound stands redirects read
      obtain ⟨front, args, redirections, sameArgs, same, later, all⟩ := ih (reads.sound sound) parsed
      refine ⟨operator ++ front, args, redirection :: redirections, sameArgs, ?_,
        reads.trans later, TailOf.redirection of all⟩
      rw [same, List.append_assoc]
      rfl
  | case4 => cases parsed
  | case5 tail before token rest stands other middle read =>
      rcases parseWord_sound sound read with ⟨word, run, some, -⟩ | ⟨-, rfl, -⟩
      · cases some
      · cases parsed
        exact ⟨[], [], [], (List.append_nil _).symm, (List.append_nil _).symm, Reads.nothing _,
          TailOf.nil⟩
  | case6 tail before token rest stands other word middle read ih =>
      rcases parseWord_sound sound read with ⟨found, run, some, reads, of, -⟩ | ⟨none, -⟩
      · cases some
        obtain ⟨front, args, redirections, same, sameRedirections, later, all⟩ :=
          ih (reads.sound sound) parsed
        refine ⟨.word run :: front, word :: args, redirections, ?_, sameRedirections,
          reads.trans later, TailOf.arg of all⟩
        rw [same, List.append_assoc]
        rfl
      · cases none

/-- The run that is read first is none of an assignment where the next token is none. -/
theorem beginsAssignment_of_head {token : Token Char} {run : List (Token Char)}
    (head : run.head? = some token) : beginsAssignment run = token.kind.assignment.isSome := by
  rw [beginsAssignment, head, Option.bind_some]

/-- The name of a command does not begin with an assignment. -/
theorem Reads.notAssignment {before after : Tokens} {run : List (Token Char)}
    (reads : Reads before [.word run] after)
    (head : ∀ token rest, before.rest = token :: rest → run.head? = some token.token)
    (ends : ∀ token rest, before.rest = token :: rest → token.kind.assignment = none) :
    beginsAssignment run = false := by
  rcases stands : before.rest with _ | ⟨token, rest⟩
  · have ended := reads.lexemes_eq
    rw [Tokens.lexemes, stands, List.map_nil, Shell.lexemes] at ended
    cases ended
  · rw [beginsAssignment_of_head (head token rest stands), ends token rest stands]
    rfl

theorem parseSimpleCommand_sound {before after : Tokens} {command : SimpleCommand CommandList}
    (sound : ∀ token ∈ before.rest, token.Sound Body)
    (parsed : parseSimpleCommand before = .ok (command, after)) :
    ∃ front, Reads before front after ∧ SimpleOf Body front command := by
  obtain ⟨⟨env, named⟩, assigned, afterEnv⟩ := bind_eq_ok.mp parsed
  obtain ⟨front, more, rfl, assigns, envOf, ends⟩ := parseEnv_sound sound assigned
  obtain ⟨⟨name, reached⟩, read, afterName⟩ := bind_eq_ok.mp afterEnv
  have within := assigns.sound sound
  rcases parseWord_sound within read with ⟨word, run, rfl, reads, of, head⟩ | ⟨rfl, rfl, -⟩
  · obtain ⟨⟨tail, final⟩, followed, returned⟩ := bind_eq_ok.mp afterName
    obtain ⟨later, args, redirections, sameArgs, same, tailReads, tailOf⟩ :=
      parseTail_sound (reads.sound within) followed
    cases returned
    refine ⟨front ++ ([.word run] ++ later), assigns.trans (reads.trans tailReads), ?_⟩
    dsimp only at sameArgs same ⊢
    rw [sameArgs, same]
    exact SimpleOf.command envOf (reads.notAssignment head ends) of tailOf
  · dsimp only at afterName
    split at afterName
    · rename_i nonempty
      cases afterName
      exact ⟨front, assigns, SimpleOf.assignments envOf nonempty⟩
    · cases afterName

theorem Tokens.of_peekKind {tokens : Tokens} {kind : TokenKind Char}
    (peeked : tokens.peekKind = some kind) :
    ∃ token rest, tokens.rest = token :: rest ∧ token.kind = kind := by
  rw [Tokens.peekKind] at peeked
  rcases stands : tokens.rest with _ | ⟨token, rest⟩
  · rw [stands] at peeked
    cases peeked
  · rw [stands] at peeked
    exact ⟨token, rest, rfl, Option.some.inj peeked⟩

/-- A peeked token that is not of a word is the next lexeme. -/
theorem Reads.peeked {before : Tokens} {kind : TokenKind Char}
    (peeked : before.peekKind = some kind) (other : kind.isWordPart = false) :
    ∃ span, Reads before [.mark ⟨kind, span⟩] before.advance := by
  obtain ⟨⟨⟨found, span⟩, parts, proper⟩, rest, stands, is⟩ := Tokens.of_peekKind peeked
  cases is
  exact ⟨span, Reads.mark stands other⟩

theorem parsePipes_sound {commands commands' : List (SimpleCommand CommandList)} {fuel : Nat}
    {before after : Tokens} (sound : ∀ token ∈ before.rest, token.Sound Body)
    (parsed : parsePipes commands fuel before = .ok (commands', after)) :
    ∃ front more, commands' = commands ++ more ∧ Reads before front after ∧
      (before.peekKind = some .pipe → more ≠ []) ∧
      ∀ start command, SimpleOf Body start command →
        PipesOf Body (start ++ front) (command :: more) := by
  induction fuel generalizing commands before with
  | zero => cases parsed
  | succ fuel ih =>
      rw [parsePipes] at parsed
      split at parsed
      · rename_i piped
        obtain ⟨span, mark⟩ := Reads.peeked piped rfl
        obtain ⟨⟨next, reached⟩, read, parsed⟩ := bind_eq_ok.mp parsed
        obtain ⟨front, reads, of⟩ := parseSimpleCommand_sound (mark.sound sound) read
        obtain ⟨later, more, rfl, rest, -, closes⟩ :=
          ih (reads.sound (mark.sound sound)) parsed
        refine ⟨_, next :: more, List.append_assoc _ _ _, mark.trans (reads.trans rest),
          fun _ => List.cons_ne_nil _ _, ?_⟩
        intro start command first
        exact PipesOf.pipe first (closes front next of)
      · rename_i other
        cases parsed
        refine ⟨[], [], (List.append_nil _).symm, Reads.nothing _,
          fun piped => (other piped).elim, ?_⟩
        intro start command first
        rw [List.append_nil]
        exact PipesOf.last first

/-! ## Lists -/

/-- Skipped separators are lexemes of their own. -/
theorem skipSeparators_reads (before : Tokens) :
    ∃ marks : List (Token Char), Reads before (marks.map .mark) before.skipSeparators ∧
      (∀ token ∈ marks, token.kind.isSeparator = true) ∧
      (before.atSeparator = true → marks ≠ []) := by
  fun_induction Tokens.skipSeparators before with
  | case1 before stands =>
      refine ⟨[], Reads.nothing _, fun _ none => absurd none List.not_mem_nil, ?_⟩
      intro separates
      rw [Tokens.atSeparator, Tokens.peekKind, stands] at separates
      cases separates
  | case2 before token rest stands separates ih =>
      obtain ⟨marks, reads, all, -⟩ := ih
      have separator : token.kind.isSeparator = true := by
        rw [Tokens.atSeparator, Tokens.peekKind, stands] at separates
        dsimp only [List.head?_cons, Option.map_some] at separates
        rcases Bool.or_eq_true_iff.mp separates with semi | newline
        · rw [Option.some.inj (beq_iff_eq.mp semi)]
          rfl
        · rw [Option.some.inj (beq_iff_eq.mp newline)]
          rfl
      have other : token.kind.isWordPart = false := by
        cases kind : token.kind <;> rw [kind] at separator <;> first | rfl | cases separator
      refine ⟨token.token :: marks, (Reads.mark stands other).trans reads, ?_,
        fun _ => List.cons_ne_nil _ _⟩
      intro found member
      rcases List.mem_cons.mp member with rfl | later
      · exact separator
      · exact all found later
  | case3 before token rest stands other =>
      exact ⟨[], Reads.nothing _, fun _ none => absurd none List.not_mem_nil,
        fun separates => (other separates).elim⟩

/-- Separators before a list belong to it. -/
theorem ListOf.separators {marks : List (Token Char)} {later : List Lexeme} {list : CommandList}
    (all : ∀ token ∈ marks, token.kind.isSeparator = true) (of : ListOf Body later list) :
    ListOf Body (marks.map .mark ++ later) list := by
  induction marks with
  | nil => exact of
  | cons token marks ih =>
      exact ListOf.separator (all token List.mem_cons_self)
        (ih fun other member => all other (List.mem_cons_of_mem token member))

/-- The grammar leaves the span of a chain open. -/
theorem AndOrOf.withSpan {front : List Lexeme} {first : CommandItem CommandList}
    {rest : List (LogicalOp × CommandItem CommandList)} {span : Span}
    (of : AndOrOf Body front ⟨first, rest, span⟩) (other : Span) :
    AndOrOf Body front ⟨first, rest, other⟩ := by
  cases of with
  | item of => exact AndOrOf.item of
  | chain op of foreground later => exact AndOrOf.chain op of foreground later

/-- The parser stops at the end, or where it reads an inner list at the end of its group. -/
def Tokens.Stopped (inner : Bool) (tokens : Tokens) : Prop :=
  (tokens.atEnd || (inner && tokens.atGroupEnd)) = true

/-- What the functions of the parser build with the fuel. -/
structure SoundAt (Body : List Char → CommandList → Prop) (fuel : Nat) : Prop where
  chains : ∀ {inner commands commands' before after},
    (∀ token ∈ before.rest, token.Sound Body) →
    parseChains inner commands fuel before = .ok (commands', after) →
    ∃ front more, commands' = commands ++ more ∧ Reads before front after ∧
      after.Stopped inner ∧ (∀ span, ListOf Body front ⟨more, span⟩) ∧
      (before.Stopped inner → front = [] ∧ more = [])
  list : ∀ {inner list before after},
    (∀ token ∈ before.rest, token.Sound Body) →
    parseCommandListImpl inner fuel before = .ok (list, after) →
    ∃ front, Reads before front after ∧ after.Stopped inner ∧ ListOf Body front list
  andOr : ∀ {andOr before after},
    (∀ token ∈ before.rest, token.Sound Body) →
    parseAndOrList fuel before = .ok (andOr, after) →
    ∃ front, Reads before front after ∧ AndOrOf Body front andOr
  operators : ∀ {rest rest' before after},
    (∀ token ∈ before.rest, token.Sound Body) →
    parseOperators rest fuel before = .ok (rest', after) →
    ∃ front more, rest' = rest ++ more ∧ Reads before front after ∧
      ∀ start first span, AndOrOf Body start ⟨first, rest, span⟩ →
        AndOrList.lastWasBackground ⟨first, rest, span⟩ = false →
          ∀ span, AndOrOf Body (start ++ front) ⟨first, rest ++ more, span⟩
  operand : ∀ {rest rest' op before after},
    (∀ token ∈ before.rest, token.Sound Body) →
    parseOperand rest op fuel before = .ok (rest', after) →
    ∃ front more, rest' = rest ++ more ∧ Reads before front after ∧
      ∀ start first span mark, AndOrOf Body start ⟨first, rest, span⟩ →
        AndOrList.lastWasBackground ⟨first, rest, span⟩ = false →
          ∀ span, AndOrOf Body (start ++ .mark ⟨op.token, mark⟩ :: front)
            ⟨first, rest ++ more, span⟩
  item : ∀ {item before after},
    (∀ token ∈ before.rest, token.Sound Body) →
    parseCommandItem fuel before = .ok (item, after) →
    ∃ front, Reads before front after ∧ ItemOf Body front item
  job : ∀ {command before after},
    (∀ token ∈ before.rest, token.Sound Body) →
    parseJob fuel before = .ok (command, after) →
    ∃ front, Reads before front after ∧ CommandOf Body front command
  compound : ∀ {delimiter command before after mark},
    (∀ token ∈ before.rest, token.Sound Body) →
    Reads before [.mark ⟨CompoundDelimiter.openingToken delimiter, mark⟩] before.advance →
    parseCompoundCommand delimiter fuel before = .ok (command, after) →
    ∃ front, Reads before front after ∧ CommandOf Body front command

section Steps

variable {fuel : Nat} (below : SoundAt Body fuel) {before after : Tokens}
include below

theorem parseChains_sound {inner : Bool} {commands commands' : List (AndOrList CommandList)}
    (sound : ∀ token ∈ before.rest, token.Sound Body)
    (parsed : parseChains inner commands (fuel + 1) before = .ok (commands', after)) :
    ∃ front more, commands' = commands ++ more ∧ Reads before front after ∧
      after.Stopped inner ∧ (∀ span, ListOf Body front ⟨more, span⟩) ∧
      (before.Stopped inner → front = [] ∧ more = []) := by
  rw [parseChains] at parsed
  split at parsed
  · rename_i stopped
    cases parsed
    exact ⟨[], [], (List.append_nil _).symm, Reads.nothing _, stopped, fun _ => ListOf.nil,
      fun _ => ⟨rfl, rfl⟩⟩
  · rename_i goesOn
    obtain ⟨⟨andOr, middle⟩, read, afterChain⟩ := bind_eq_ok.mp parsed
    obtain ⟨front, reads, of⟩ := below.andOr sound read
    have within := reads.sound sound
    dsimp only at afterChain
    split at afterChain
    · cases afterChain
    · rename_i notRefused
      obtain ⟨marks, skipped, all, some⟩ := skipSeparators_reads middle
      obtain ⟨later, more, rfl, rest, stopped, closes, nothing⟩ :=
        below.chains (skipped.sound within) afterChain
      refine ⟨front ++ (marks.map .mark ++ later), andOr :: more, List.append_assoc _ _ _,
        reads.trans (skipped.trans rest), stopped, ?_, fun held => (goesOn held).elim⟩
      intro span
      by_cases background : andOr.lastWasBackground = true
      · exact ListOf.background of background (ListOf.separators all (closes span))
      · by_cases separates : middle.atSeparator = true
        · obtain ⟨token, others, rfl⟩ := List.exists_cons_of_ne_nil (some separates)
          exact ListOf.separated of (all token List.mem_cons_self)
            (ListOf.separators (fun other member => all other (List.mem_cons_of_mem token member))
              (closes span))
        · -- The list ends behind the chain.
          have ended : middle.Stopped inner := by
            rw [Tokens.Stopped]
            revert notRefused background separates
            cases andOr.lastWasBackground <;> cases middle.atSeparator <;> cases middle.atEnd <;>
              cases inner <;> cases middle.atGroupEnd <;> decide
          have same : middle.skipSeparators = middle := by
            rw [Tokens.skipSeparators]
            split
            · rfl
            · rw [if_neg separates]
          have alone : marks = [] := by
            have counted := congrArg List.length skipped.lexemes_eq
            rw [same, List.length_append, List.length_map] at counted
            exact List.eq_nil_of_length_eq_zero (by omega)
          obtain ⟨rfl, rfl⟩ := nothing (same.symm ▸ ended)
          rw [alone]
          exact (List.append_nil front).symm ▸ ListOf.last of

theorem parseCommandListImpl_sound {inner : Bool} {list : CommandList}
    (sound : ∀ token ∈ before.rest, token.Sound Body)
    (parsed : parseCommandListImpl inner (fuel + 1) before = .ok (list, after)) :
    ∃ front, Reads before front after ∧ after.Stopped inner ∧ ListOf Body front list := by
  rw [parseCommandListImpl] at parsed
  obtain ⟨⟨commands, middle⟩, read, returned⟩ := bind_eq_ok.mp parsed
  obtain ⟨marks, skipped, all, -⟩ := skipSeparators_reads before
  obtain ⟨front, more, same, reads, stopped, closes, -⟩ :=
    below.chains (skipped.sound sound) read
  cases returned
  rw [List.nil_append] at same
  refine ⟨_, skipped.trans reads, stopped, ListOf.separators all ?_⟩
  rw [same]
  exact closes _

theorem parseAndOrList_sound {andOr : AndOrList CommandList}
    (sound : ∀ token ∈ before.rest, token.Sound Body)
    (parsed : parseAndOrList (fuel + 1) before = .ok (andOr, after)) :
    ∃ front, Reads before front after ∧ AndOrOf Body front andOr := by
  rw [parseAndOrList] at parsed
  obtain ⟨⟨first, middle⟩, read, afterFirst⟩ := bind_eq_ok.mp parsed
  obtain ⟨front, reads, of⟩ := below.item sound read
  dsimp only at afterFirst
  split at afterFirst
  · cases afterFirst
    exact ⟨front, reads, AndOrOf.item of⟩
  · rename_i foreground
    obtain ⟨⟨rest, reached⟩, followed, returned⟩ := bind_eq_ok.mp afterFirst
    obtain ⟨later, more, same, restReads, closes⟩ :=
      below.operators (reads.sound sound) followed
    cases returned
    rw [List.nil_append] at same
    subst same
    exact ⟨_, reads.trans restReads, closes front first first.span (AndOrOf.item of)
      (Bool.eq_false_iff.mpr foreground) _⟩

theorem parseOperators_sound {rest rest' : List (LogicalOp × CommandItem CommandList)}
    (sound : ∀ token ∈ before.rest, token.Sound Body)
    (parsed : parseOperators rest (fuel + 1) before = .ok (rest', after)) :
    ∃ front more, rest' = rest ++ more ∧ Reads before front after ∧
      ∀ start first span, AndOrOf Body start ⟨first, rest, span⟩ →
        AndOrList.lastWasBackground ⟨first, rest, span⟩ = false →
          ∀ span, AndOrOf Body (start ++ front) ⟨first, rest ++ more, span⟩ := by
  rw [parseOperators] at parsed
  have withOp (op : LogicalOp) (peeked : before.peekKind = some op.token)
      (parsed : parseOperand rest op fuel before.advance = .ok (rest', after)) :
      ∃ front more, rest' = rest ++ more ∧ Reads before front after ∧
        ∀ start first span, AndOrOf Body start ⟨first, rest, span⟩ →
          AndOrList.lastWasBackground ⟨first, rest, span⟩ = false →
            ∀ span, AndOrOf Body (start ++ front) ⟨first, rest ++ more, span⟩ := by
    obtain ⟨mark, reads⟩ := Reads.peeked peeked (by cases op <;> rfl)
    obtain ⟨front, more, same, later, closes⟩ := below.operand (reads.sound sound) parsed
    exact ⟨_, more, same, reads.trans later, fun start first span of foreground =>
      closes start first span mark of foreground⟩
  split at parsed
  · rename_i peeked
    exact withOp .and peeked parsed
  · rename_i peeked
    exact withOp .or peeked parsed
  · cases parsed
    refine ⟨[], [], (List.append_nil _).symm, Reads.nothing _, ?_⟩
    intro start first span of _ other
    rw [List.append_nil, List.append_nil]
    exact of.withSpan other

theorem parseOperand_sound {rest rest' : List (LogicalOp × CommandItem CommandList)}
    {op : LogicalOp} (sound : ∀ token ∈ before.rest, token.Sound Body)
    (parsed : parseOperand rest op (fuel + 1) before = .ok (rest', after)) :
    ∃ front more, rest' = rest ++ more ∧ Reads before front after ∧
      ∀ start first span mark, AndOrOf Body start ⟨first, rest, span⟩ →
        AndOrList.lastWasBackground ⟨first, rest, span⟩ = false →
          ∀ span, AndOrOf Body (start ++ .mark ⟨op.token, mark⟩ :: front)
            ⟨first, rest ++ more, span⟩ := by
  rw [parseOperand] at parsed
  obtain ⟨⟨item, middle⟩, read, afterItem⟩ := bind_eq_ok.mp parsed
  obtain ⟨front, reads, of⟩ := below.item sound read
  dsimp only at afterItem
  split at afterItem
  · cases afterItem
    exact ⟨front, [(op, item)], rfl, reads, fun start first span mark chain foreground other =>
      AndOrOf.chain op chain foreground of⟩
  · rename_i inFront
    obtain ⟨later, more, rfl, restReads, closes⟩ := below.operators (reads.sound sound) afterItem
    refine ⟨_, _, List.append_assoc _ _ _, reads.trans restReads, ?_⟩
    intro start first span mark chain foreground other
    have extended : AndOrOf Body (start ++ .mark ⟨op.token, mark⟩ :: front)
        ⟨first, rest ++ [(op, item)], span⟩ := AndOrOf.chain op chain foreground of
    have still : AndOrList.lastWasBackground (⟨first, rest ++ [(op, item)], span⟩ :
        AndOrList CommandList) = false := by
      simpa [AndOrList.lastWasBackground] using inFront
    have whole := closes _ first span extended still other
    rw [List.append_assoc, List.append_assoc] at whole
    exact whole

theorem parseCommandItem_sound {item : CommandItem CommandList}
    (sound : ∀ token ∈ before.rest, token.Sound Body)
    (parsed : parseCommandItem (fuel + 1) before = .ok (item, after)) :
    ∃ front, Reads before front after ∧ ItemOf Body front item := by
  rw [parseCommandItem] at parsed
  obtain ⟨⟨command, middle⟩, read, afterJob⟩ := bind_eq_ok.mp parsed
  obtain ⟨front, reads, of⟩ := below.job sound read
  dsimp only at afterJob
  split at afterJob
  · rename_i span parts proper rest stands
    cases afterJob
    exact ⟨_, reads.trans (Reads.mark stands rfl), ItemOf.background of⟩
  · cases afterJob
    exact ⟨front, reads, ItemOf.foreground of⟩

theorem parseJob_sound {command : Command CommandList}
    (sound : ∀ token ∈ before.rest, token.Sound Body)
    (parsed : parseJob (fuel + 1) before = .ok (command, after)) :
    ∃ front, Reads before front after ∧ CommandOf Body front command := by
  rw [parseJob] at parsed
  split at parsed
  · rename_i peeked
    obtain ⟨mark, reads⟩ := Reads.peeked peeked rfl
    exact @SoundAt.compound Body fuel below .paren _ _ _ _ sound reads parsed
  · rename_i peeked
    obtain ⟨mark, reads⟩ := Reads.peeked peeked rfl
    exact @SoundAt.compound Body fuel below .brace _ _ _ _ sound reads parsed
  · obtain ⟨⟨first, middle⟩, read, afterFirst⟩ := bind_eq_ok.mp parsed
    obtain ⟨front, reads, of⟩ := parseSimpleCommand_sound sound read
    dsimp only at afterFirst
    split at afterFirst
    · rename_i piped
      obtain ⟨⟨commands, reached⟩, followed, returned⟩ := bind_eq_ok.mp afterFirst
      obtain ⟨later, more, rfl, rest, some, closes⟩ :=
        parsePipes_sound (reads.sound sound) followed
      cases returned
      refine ⟨_, reads.trans rest, CommandOf.job (closes front first of) ?_⟩
      have positive := List.length_pos_iff.mpr (some piped)
      rw [List.length_append, List.length_singleton]
      omega
    · cases afterFirst
      exact ⟨front, reads, CommandOf.simple of⟩

theorem parseCompoundCommand_sound {delimiter : CompoundDelimiter} {command : Command CommandList}
    {mark : Span} (sound : ∀ token ∈ before.rest, token.Sound Body)
    (opens : Reads before [.mark ⟨delimiter.openingToken, mark⟩] before.advance)
    (parsed : parseCompoundCommand delimiter (fuel + 1) before = .ok (command, after)) :
    ∃ front, Reads before front after ∧ CommandOf Body front command := by
  rw [parseCompoundCommand] at parsed
  obtain ⟨⟨body, middle⟩, read, afterBody⟩ := bind_eq_ok.mp parsed
  obtain ⟨inner, reads, -, of⟩ := below.list (opens.sound sound) read
  have within := (opens.trans reads).sound sound
  dsimp only at afterBody
  split at afterBody
  · rename_i token rest stands
    split at afterBody
    · rename_i closes
      obtain ⟨⟨⟨redirections, stop⟩, reached⟩, followed, returned⟩ := bind_eq_ok.mp afterBody
      have other : token.kind.isWordPart = false := by
        rw [closes]
        cases delimiter <;> rfl
      have closing := Reads.mark stands other
      obtain ⟨later, more, same, rest, redirected⟩ :=
        parseRedirections_sound (closing.sound within) followed
      cases returned
      rw [List.nil_append] at same
      subst same
      refine ⟨_, (opens.trans reads).trans (closing.trans rest), ?_⟩
      obtain ⟨⟨kind, span⟩, parts, proper⟩ := token
      cases closes
      cases delimiter with
      | paren => exact CommandOf.subshell of redirected
      | brace => exact CommandOf.braceGroup of redirected
    · cases afterBody
  · cases afterBody

end Steps

/-- The parser is sound with any fuel. -/
theorem soundAt (fuel : Nat) : SoundAt Body fuel := by
  induction fuel with
  | zero =>
      constructor <;>
      · intros
        rename_i parsed
        first
        | rw [parseChains] at parsed
        | rw [parseCommandListImpl] at parsed
        | rw [parseAndOrList] at parsed
        | rw [parseOperators] at parsed
        | rw [parseOperand] at parsed
        | rw [parseCommandItem] at parsed
        | rw [parseJob] at parsed
        | rw [parseCompoundCommand] at parsed
        cases parsed
  | succ fuel below =>
      exact {
        chains := parseChains_sound below
        list := parseCommandListImpl_sound below
        andOr := parseAndOrList_sound below
        operators := parseOperators_sound below
        operand := parseOperand_sound below
        item := parseCommandItem_sound below
        job := parseJob_sound below
        compound := parseCompoundCommand_sound below }

/-- What the parser returns is a tree of all the tokens. -/
theorem parseCommandList_sound {inputLen : Nat} {tokens : List ParsedToken} {list : CommandList}
    (sound : ∀ token ∈ tokens, token.Sound Body)
    (parsed : parseCommandList inputLen tokens = .ok list) :
    ListOf Body (lexemes (tokens.map ParsedToken.token)) list := by
  obtain ⟨⟨found, after⟩, returns, returned⟩ := bind_eq_ok.mp parsed
  cases returned
  have read := mapError_eq_ok.mp returns
  obtain ⟨front, reads, stopped, of⟩ := (soundAt _).list sound read
  have ended : after.rest = [] := by
    rw [Tokens.Stopped, Bool.false_and, Bool.or_false, Tokens.atEnd] at stopped
    exact List.isEmpty_iff.mp stopped
  have whole := reads.lexemes_eq
  rw [Tokens.lexemes, Tokens.lexemes, ended, List.map_nil, Shell.lexemes, List.append_nil] at whole
  rw [whole]
  exact of

end Soundness

end OddJobs.Shell
