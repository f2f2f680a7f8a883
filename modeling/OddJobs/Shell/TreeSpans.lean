import OddJobs.Shell.Spans

/-!
# Spans that nest

Everything that the parser builds has its spans in order, apart from assignments: the span of an
assignment is that of its first token, and so is the span of assignments alone.
-/

namespace OddJobs.Shell

open Library

section Trees

variable {input : List Char} {before middle after : Tokens}

/-- A node from the token at one position up to what has been consumed at another. -/
structure Built (input : List Char) (before after : Tokens) (span : Span) : Prop where
  walks : Walks before after
  on : span.On input
  begins : span.start = before.here
  ends : span.stop ≤ after.reached

/-! ## Words -/

theorem collectAdjacentParts_walks {stop stop' : Nat}
    {parts parts' : List (WordPart Char CommandList)} (laid : before.Laid input)
    (ends : stop = before.reached)
    (parsed : collectAdjacentParts stop parts before = .ok ((stop', parts'), after)) :
    Walks before after ∧ stop' = after.reached ∧
      ((adjacentRun stop (before.rest.map ParsedToken.token)).1 = [] ↔ stop' ≤ stop) := by
  fun_induction collectAdjacentParts stop parts before with
  | case1 stop parts before stands =>
      cases parsed
      refine ⟨Walks.refl _, ends, ?_⟩
      rw [stands]
      exact iff_of_true rfl (Nat.le_refl _)
  | case2 => cases parsed
  | case3 parts before token rest stands converted =>
      cases parsed
      refine ⟨Walks.refl _, ends, iff_of_true ?_ (Nat.le_refl _)⟩
      have other := ParsedToken.not_isWordPart_of_parts converted
      rw [stands, List.map_cons, adjacentRun, if_neg]
      rintro ⟨isPart, -⟩
      exact Bool.false_ne_true (other.symm.trans isPart)
  | case4 parts before token rest stands part more converted ih =>
      have isPart := ParsedToken.isWordPart_of_parts converted
      have lt := (laid.placed stands).lt
      have there := laid.advance stands
      have reached : token.span.stop = before.advance.reached := by
        rw [Tokens.advance_eq stands]
        rfl
      obtain ⟨walks, ends', -⟩ := ih there reached parsed
      have le := walks.reached_le there
      refine ⟨Walks.step stands walks, ends', iff_of_false ?_ ?_⟩
      · rw [stands, List.map_cons, adjacentRun, if_pos ⟨isPart, rfl⟩]
        exact List.cons_ne_nil _ _
      · rw [ends', Nat.not_le]
        rw [← reached] at le
        exact Nat.lt_of_lt_of_le lt le
  | case5 stop parts before token rest stands apart =>
      cases parsed
      refine ⟨Walks.refl _, ends, iff_of_true ?_ (Nat.le_refl _)⟩
      rw [stands, List.map_cons, adjacentRun, if_neg fun held => apart held.2]

/-- A word has letters, and ends with the last token that it consumes. -/
theorem parseWord_built {word : Word CommandList} (laid : before.Laid input)
    (parsed : parseWord before = .ok (some word, after)) :
    Built input before after word.span ∧ word.span.start < word.span.stop ∧
      word.span.stop = after.reached ∧ word.parts.isEmpty = false := by
  unfold parseWord at parsed
  split at parsed
  · cases parsed
  · rename_i token rest stands
    split at parsed
    · cases parsed
    · cases parsed
    · rename_i part more converted
      obtain ⟨⟨⟨stop, parts⟩, reached⟩, collected, returned⟩ := bind_eq_ok.mp parsed
      cases returned
      have there := laid.advance stands
      have placed := laid.placed stands
      have start : token.span.stop = before.advance.reached := by
        rw [Tokens.advance_eq stands]
        rfl
      obtain ⟨walks, ends, -⟩ := collectAdjacentParts_walks there start collected
      have le := walks.reached_le there
      rw [← start, ← ends] at le
      have lt : token.span.start < stop := Nat.lt_of_lt_of_le placed.lt le
      obtain ⟨later, same, -⟩ := collectAdjacentParts_sound there.sound collected
      refine ⟨⟨Walks.step stands walks, ⟨Nat.le_of_lt lt, placed.on.start, ?_⟩, ?_, ?_⟩,
        lt, ends, ?_⟩
      · rw [ends]
        exact (walks.laid there).boundary
      · exact (Tokens.here_cons stands).symm
      · exact Nat.le_of_eq ends
      · rw [same]
        rfl

theorem Built.row {span : Span} (built : Built input before after span) :
    Row input before.here after.reached [span] :=
  Row.one built.on (Nat.le_of_eq built.begins.symm) built.ends

theorem Row.walks {spans later : List Span} {stop : Nat}
    (row : Row input before.here middle.reached spans) (walks : Walks before middle)
    (laid : before.Laid input) (goesOn : Row input middle.here stop later)
    (upper : middle.reached ≤ stop) : Row input before.here stop (spans ++ later) :=
  row.append goesOn (walks.laid laid).reached_le_here (walks.here_le laid) upper

theorem parseTarget_built {expected : String} {build : Word CommandList → Redirection CommandList}
    {redirection : Redirection CommandList} (laid : before.Laid input)
    (parsed : parseTarget expected build before = .ok (redirection, after)) :
    ∃ word, redirection = build word ∧ Built input before after word.span ∧
      word.span.stop = after.reached := by
  obtain ⟨⟨word, reached⟩, required, returned⟩ := bind_eq_ok.mp parsed
  cases returned
  obtain ⟨⟨found, reached'⟩, read, returned⟩ := bind_eq_ok.mp required
  cases found with
  | none => cases returned
  | some found =>
      cases returned
      obtain ⟨built, -, ends, -⟩ := parseWord_built laid read
      exact ⟨word, rfl, built, ends⟩

/-- The word of a redirection is the last that the redirection consumes. -/
structure Redirected (input : List Char) (before after : Tokens)
    (redirection : Redirection CommandList) : Prop where
  walks : Walks before after
  target : ∀ target, redirection.targetSpan = some target →
    Built input before after target ∧ target.stop = after.reached

theorem parseRedirection_built {operator : TokenKind Char} {redirection : Redirection CommandList}
    (laid : before.Laid input)
    (parsed : parseRedirection operator before = .ok (redirection, after)) :
    Redirected input before after redirection := by
  have withWord {expected : String} {build : Word CommandList → Redirection CommandList}
      (last : ∀ word, (build word).targetSpan = some word.span)
      (parsed : parseTarget expected build before = .ok (redirection, after)) :
      Redirected input before after redirection := by
    obtain ⟨word, rfl, built, ends⟩ := parseTarget_built laid parsed
    refine ⟨built.walks, fun target is => ?_⟩
    rw [last] at is
    cases is
    exact ⟨built, ends⟩
  have withoutWord (none : redirection.targetSpan = none) (same : after = before) :
      Redirected input before after redirection := by
    refine ⟨same ▸ Walks.refl _, fun target is => ?_⟩
    rw [none] at is
    cases is
  cases operator with
  | redirectOut fd =>
      rw [parseRedirection] at parsed
      exact withWord (fun _ => rfl) parsed
  | redirectAppend fd =>
      rw [parseRedirection] at parsed
      exact withWord (fun _ => rfl) parsed
  | redirectIn fd => exact withWord (fun _ => rfl) parsed
  | hereString fd => exact withWord (fun _ => rfl) parsed
  | redirectBoth append => exact withWord (fun _ => rfl) parsed
  | hereDoc fd stripTabs delimiter body quoted =>
      cases parsed
      exact withoutWord rfl rfl
  | duplicateFd source target output =>
      cases parsed
      exact withoutWord rfl rfl
  | _ => cases parsed

theorem targetSpans_cons (redirection : Redirection CommandList)
    (redirections : List (Redirection CommandList)) :
    targetSpans (redirection :: redirections) =
      redirection.targetSpan.toList ++ targetSpans redirections := by
  unfold targetSpans
  rw [List.filterMap_cons]
  cases redirection.targetSpan <;> rfl

/-- The redirections of a group end it, where they have words. -/
theorem parseRedirections_built {redirections redirections' : List (Redirection CommandList)}
    {stop stop' : Nat} (laid : before.Laid input) (ends : stop ≤ before.reached)
    (boundary : Text.Boundary stop input)
    (parsed : parseRedirections redirections stop before = .ok ((redirections', stop'), after)) :
    ∃ more, redirections' = redirections ++ more ∧ Walks before after ∧
      Row input before.here stop' (targetSpans more) ∧ stop ≤ stop' ∧ stop' ≤ after.reached ∧
        Text.Boundary stop' input := by
  fun_induction parseRedirections redirections stop before with
  | case1 redirections stop before stands =>
      cases parsed
      exact ⟨[], (List.append_nil _).symm, Walks.refl _, Row.nil, Nat.le_refl _, ends, boundary⟩
  | case2 => cases parsed
  | case3 redirections stop before token rest stands redirects redirection middle read ih =>
      have there := laid.advance stands
      have redirected := parseRedirection_built there read
      have within := redirected.walks.laid there
      have first := (Walks.one stands).reached_le laid
      have second := redirected.walks.reached_le there
      have moves : before.reached ≤ middle.reached := Nat.le_trans first second
      have all := Walks.step stands redirected.walks
      cases is : redirection.targetSpan with
      | none =>
          rw [is] at ih parsed
          obtain ⟨more, rfl, walks, row, grows, le, final⟩ :=
            ih within (Nat.le_trans ends moves) boundary parsed
          refine ⟨redirection :: more, List.append_assoc _ _ _, all.trans walks, ?_,
            grows, le, final⟩
          rw [targetSpans_cons, is]
          exact row.mono (all.here_le laid) (Nat.le_refl _)
      | some target =>
          obtain ⟨built, last⟩ := redirected.target target is
          rw [is] at ih parsed
          obtain ⟨more, rfl, walks, row, grows, le, final⟩ :=
            ih within (Nat.le_of_eq last) built.on.stop parsed
          refine ⟨redirection :: more, List.append_assoc _ _ _, all.trans walks, ?_, ?_, le, final⟩
          · rw [targetSpans_cons, is]
            have word := built.row.mono ((Walks.one stands).here_le laid) (Nat.le_refl _)
            exact word.walks all laid row (last ▸ grows)
          · exact Nat.le_trans (Nat.le_trans ends moves) (last ▸ grows)
  | case4 redirections stop before token rest stands other =>
      cases parsed
      exact ⟨[], (List.append_nil _).symm, Walks.refl _, Row.nil, Nat.le_refl _, ends, boundary⟩

/-! ## Simple commands -/

/-- What `parseTail` adds to the words of a command that ends with a span so far. -/
structure TailBuilt (input : List Char) (before after : Tokens) (ends ends' : Span)
    (args targets : List Span) : Prop where
  walks : Walks before after
  on : ends'.On input
  start_le : ends.start ≤ ends'.start
  grows : ends.stop ≤ ends'.stop
  le : ends'.stop ≤ after.reached
  argRow : Row input before.here ends'.stop args
  targetRow : Row input before.here ends'.stop targets
  apart : ∀ arg ∈ args, ∀ target ∈ targets, Span.Before arg target ∨ Span.Before target arg

namespace TailBuilt

variable {ends ends' span : Span} {args targets : List Span}

theorem nothing (on : ends.On input) (le : ends.stop ≤ before.reached) :
    TailBuilt input before before ends ends [] [] where
  walks := Walks.refl _
  on := on
  start_le := Nat.le_refl _
  grows := Nat.le_refl _
  le := le
  argRow := Row.nil
  targetRow := Row.nil
  apart := fun _ none => absurd none List.not_mem_nil

/-- A redirection without a word leaves the end where it is. -/
theorem skip (walks : Walks before middle) (laid : before.Laid input)
    (tail : TailBuilt input middle after ends ends' args targets) :
    TailBuilt input before after ends ends' args targets where
  walks := walks.trans tail.walks
  on := tail.on
  start_le := tail.start_le
  grows := tail.grows
  le := tail.le
  argRow := tail.argRow.mono (walks.here_le laid) (Nat.le_refl _)
  targetRow := tail.targetRow.mono (walks.here_le laid) (Nat.le_refl _)
  apart := tail.apart

theorem ends_le (laid : before.Laid input) (le : ends.stop ≤ before.reached) (on : ends.On input)
    (built : Built input before middle span) :
    ends.start ≤ span.start ∧ ends.stop ≤ span.stop := by
  have behind := laid.reached_le_here
  have begins := built.begins
  have lower := on.le
  have upper := built.on.le
  exact ⟨by omega, by omega⟩

/-- An argument is the end of the command so far. -/
theorem arg (laid : before.Laid input) (le : ends.stop ≤ before.reached) (on : ends.On input)
    (built : Built input before middle span) (last : span.stop = middle.reached)
    (tail : TailBuilt input middle after span ends' args targets) :
    TailBuilt input before after ends ends' (span :: args) targets := by
  obtain ⟨start_le, stop_le⟩ := ends_le laid le on built
  have walks := built.walks
  refine ⟨walks.trans tail.walks, tail.on, Nat.le_trans start_le tail.start_le,
    Nat.le_trans stop_le tail.grows, tail.le, ?_, ?_, ?_⟩
  · exact built.row.walks walks laid tail.argRow (last ▸ tail.grows)
  · exact tail.targetRow.mono (walks.here_le laid) (Nat.le_refl _)
  · intro found member target is
    rcases List.mem_cons.mp member with rfl | later
    · have behind := (walks.laid laid).reached_le_here
      exact Or.inl (Nat.le_trans (last ▸ behind) (tail.targetRow.lower target is))
    · exact tail.apart found later target is

/-- So is the word of a redirection. -/
theorem target (laid : before.Laid input) (le : ends.stop ≤ before.reached) (on : ends.On input)
    (built : Built input before middle span) (last : span.stop = middle.reached)
    (tail : TailBuilt input middle after span ends' args targets) :
    TailBuilt input before after ends ends' args (span :: targets) := by
  obtain ⟨start_le, stop_le⟩ := ends_le laid le on built
  have walks := built.walks
  refine ⟨walks.trans tail.walks, tail.on, Nat.le_trans start_le tail.start_le,
    Nat.le_trans stop_le tail.grows, tail.le, ?_, ?_, ?_⟩
  · exact tail.argRow.mono (walks.here_le laid) (Nat.le_refl _)
  · exact built.row.walks walks laid tail.targetRow (last ▸ tail.grows)
  · intro found member target is
    rcases List.mem_cons.mp is with rfl | later
    · have behind := (walks.laid laid).reached_le_here
      exact Or.inr (Nat.le_trans (last ▸ behind) (tail.argRow.lower found member))
    · exact tail.apart found member target later

end TailBuilt

theorem parseTail_built {tail tail' : CommandTail} (laid : before.Laid input)
    (on : tail.endSpan.On input) (le : tail.endSpan.stop ≤ before.reached)
    (parsed : parseTail tail before = .ok (tail', after)) :
    ∃ args redirections, tail'.args = tail.args ++ args ∧
      tail'.redirections = tail.redirections ++ redirections ∧
      TailBuilt input before after tail.endSpan tail'.endSpan (args.map (·.span))
        (targetSpans redirections) := by
  fun_induction parseTail tail before with
  | case1 tail before stands =>
      cases parsed
      exact ⟨[], [], (List.append_nil _).symm, (List.append_nil _).symm, TailBuilt.nothing on le⟩
  | case2 => cases parsed
  | case3 tail before token rest stands redirects redirection middle read ih =>
      have there := laid.advance stands
      have operator := Walks.one stands
      have first := operator.reached_le laid
      have redirected := parseRedirection_built there read
      have within := redirected.walks.laid there
      cases is : redirection.targetSpan with
      | none =>
          rw [is] at ih parsed
          have second := redirected.walks.reached_le there
          obtain ⟨args, redirections, sameArgs, same, built⟩ :=
            ih within on (Nat.le_trans le (Nat.le_trans first second)) parsed
          refine ⟨args, redirection :: redirections, sameArgs, ?_, ?_⟩
          · rw [same, List.append_assoc]
            rfl
          · rw [targetSpans_cons, is]
            exact built.skip (operator.trans redirected.walks) laid
      | some target =>
          obtain ⟨word, last⟩ := redirected.target target is
          rw [is] at ih parsed
          obtain ⟨args, redirections, sameArgs, same, built⟩ :=
            ih within word.on (Nat.le_of_eq last) parsed
          refine ⟨args, redirection :: redirections, sameArgs, ?_, ?_⟩
          · rw [same, List.append_assoc]
            rfl
          · rw [targetSpans_cons, is]
            exact (TailBuilt.target there (Nat.le_trans le first) on word last built).skip
              operator laid
  | case4 => cases parsed
  | case5 tail before token rest stands other middle read =>
      cases parsed
      rcases parseWord_sound laid.sound read with ⟨word, run, none, -⟩ | ⟨-, rfl, -⟩
      · cases none
      · exact ⟨[], [], (List.append_nil _).symm, (List.append_nil _).symm, TailBuilt.nothing on le⟩
  | case6 tail before token rest stands other word middle read ih =>
      obtain ⟨built, -, last, -⟩ := parseWord_built laid read
      obtain ⟨args, redirections, same, sameRedirections, tailBuilt⟩ :=
        ih (built.walks.laid laid) built.on (Nat.le_of_eq last) parsed
      refine ⟨word :: args, redirections, ?_, sameRedirections, ?_⟩
      · rw [same, List.append_assoc]
        rfl
      · exact TailBuilt.arg laid le on built last tailBuilt

/-- What `parseEnv` adds to the assignments of a command. -/
structure EnvBuilt (input : List Char) (before after : Tokens)
    (env : List (EnvAssignment CommandList)) : Prop where
  walks : Walks before after
  row : Row input before.here after.reached (env.map (·.span))
  lt : ∀ assignment ∈ env, assignment.span.start < assignment.span.stop
  values : ∀ assignment ∈ env, assignment.value.span.On input
  first : ∀ assignment, env.head? = some assignment →
    before.rest.head?.map (·.span) = some assignment.span
  /-- The assignments are plain where their values lie in their spans. -/
  plain : ∀ count, plainAssignments (some count) before.lexemes = true ↔
    (∀ assignment ∈ env, assignment.value.span.Within assignment.span) ∧
      plainAssignments (some (count + env.length)) after.lexemes = true

theorem EnvBuilt.nothing (before : Tokens) : EnvBuilt input before before [] where
  walks := Walks.refl _
  row := Row.nil
  lt := fun _ none => absurd none List.not_mem_nil
  values := fun _ none => absurd none List.not_mem_nil
  first := fun _ none => by cases none
  plain := fun count =>
    ⟨fun plain => ⟨fun _ none => absurd none List.not_mem_nil, plain⟩, fun plain => plain.2⟩

theorem EnvBuilt.cons {assignment : EnvAssignment CommandList}
    {env : List (EnvAssignment CommandList)} (laid : before.Laid input)
    (walks : Walks before middle)
    (row : Row input before.here middle.reached [assignment.span])
    (lt : assignment.span.start < assignment.span.stop) (value : assignment.value.span.On input)
    (first : before.rest.head?.map (·.span) = some assignment.span)
    (plain : ∀ count, plainAssignments (some count) before.lexemes = true ↔
      assignment.value.span.Within assignment.span ∧
        plainAssignments (some (count + 1)) middle.lexemes = true)
    (later : EnvBuilt input middle after env) :
    EnvBuilt input before after (assignment :: env) where
  walks := walks.trans later.walks
  row := row.walks walks laid later.row (later.walks.reached_le (walks.laid laid))
  lt := List.forall_mem_cons.mpr ⟨lt, later.lt⟩
  values := List.forall_mem_cons.mpr ⟨value, later.values⟩
  first := by
    rintro other ⟨⟩
    exact first
  plain := by
    intro count
    rw [plain count, later.plain (count + 1), List.forall_mem_cons, and_assoc, List.length_cons,
      Nat.add_assoc, Nat.add_comm 1]

theorem parseEnv_built {env env' : List (EnvAssignment CommandList)} (laid : before.Laid input)
    (parsed : parseEnv env before = .ok (env', after)) :
    ∃ more, env' = env ++ more ∧ EnvBuilt input before after more := by
  fun_induction parseEnv env before with
  | case1 env before word span converted proper rest stands plain =>
      cases parsed
      exact ⟨[], (List.append_nil _).symm, EnvBuilt.nothing _⟩
  | case2 => cases parsed
  | case3 env before word span converted proper rest stands name value assigns stop parts middle
      collected start ih =>
      have there := laid.advance stands
      have placed := laid.placed stands
      have advanced : before.advance.rest = rest := by rw [Tokens.advance, stands]
      have reached : span.stop = before.advance.reached := by
        rw [Tokens.advance_eq stands]
        rfl
      obtain ⟨walks, ends, alone⟩ := collectAdjacentParts_walks there reached collected
      obtain ⟨adjacent, -, run, left, suffix⟩ := collectAdjacentParts_sound there.sound collected
      rw [advanced] at run left suffix alone
      have reads : Reads before _ middle := Reads.word stands rfl left suffix
      have le := walks.reached_le there
      rw [← reached] at le
      obtain ⟨more, rfl, built⟩ := ih (walks.laid there) parsed
      refine ⟨_, List.append_assoc _ _ _,
        built.cons laid (Walks.step stands walks) ?_ placed.lt ?_ ?_ ?_⟩
      · exact Row.one placed.on (Nat.le_of_eq (Tokens.here_cons stands)) le
      · obtain ⟨begins, inside⟩ := placed.assigned name value assigns
        exact ⟨Nat.le_trans inside (ends ▸ le), begins, ends ▸ (walks.laid there).boundary⟩
      · rw [stands]
        rfl
      · intro count
        rw [reads.lexemes_eq, List.singleton_append, plainAssignments, if_pos, Bool.and_eq_true,
          beq_iff_eq]
        · refine and_congr_left fun _ => ?_
          rw [List.length_cons, Nat.add_eq_right, List.length_eq_zero_iff, alone]
          exact (and_iff_right (Nat.le_add_right_of_le (Nat.le_add_right _ _))).symm
        · rw [beginsAssignment_of_head List.head?_cons]
          exact Option.isSome_of_eq_some assigns
  | case4 env before other =>
      cases parsed
      exact ⟨[], (List.append_nil _).symm, EnvBuilt.nothing _⟩

theorem plain_redirection {Body : List Char → CommandList → Prop} {front rest : List Lexeme}
    {redirection : Redirection CommandList} (of : RedirectionOf Body front redirection) :
    plainAssignments none (front ++ rest) = plainAssignments none rest := by
  cases of <;> rfl

theorem plain_redirections {Body : List Char → CommandList → Prop} {front : List Lexeme}
    {redirections : List (Redirection CommandList)} (of : RedirectionsOf Body front redirections)
    (rest : List Lexeme) : plainAssignments none (front ++ rest) = plainAssignments none rest := by
  induction of with
  | nil => rfl
  | cons first _ ih => rw [List.append_assoc, plain_redirection first, ih]

/-- Words and redirections behind the name of a command are no assignments. -/
theorem plain_tail {Body : List Char → CommandList → Prop} {front : List Lexeme}
    {args : List (Word CommandList)} {redirections : List (Redirection CommandList)}
    (of : TailOf Body front args redirections) (rest : List Lexeme) :
    plainAssignments none (front ++ rest) = plainAssignments none rest := by
  induction of with
  | nil => rfl
  | arg _ _ ih => rw [List.cons_append, plainAssignments, ih]
  | redirection first _ ih => rw [List.append_assoc, plain_redirection first, ih]

/-- A node, and what it says about the assignments that it has consumed. -/
structure Judged (input : List Char) (before after : Tokens) (span : Span) (nests : Prop)
    (state : Option Nat) : Prop extends Built input before after span where
  plain : plainAssignments (some 0) before.lexemes = true ↔
    nests ∧ plainAssignments state after.lexemes = true

/-- Where the next token is not of a word, no word follows. -/
theorem Tokens.lexemes_notWord {tokens : Tokens}
    (other : ∀ token rest, tokens.rest = token :: rest → token.kind.isWordPart = false) :
    ∀ run later, tokens.lexemes ≠ .word run :: later := by
  intro run later
  unfold Tokens.lexemes
  cases stands : tokens.rest with
  | nil =>
      rw [List.map_nil, Shell.lexemes]
      exact (List.cons_ne_nil _ _).symm
  | cons token rest =>
      rw [List.map_cons, Shell.lexemes, if_neg]
      · intro same
        cases same
      · rw [other token rest stands]
        exact Bool.false_ne_true

/-- Where no word follows, the assignments of the command have ended. -/
theorem plain_alone {count : Nat} {rest : List Lexeme}
    (noWord : ∀ run later, rest ≠ .word run :: later) :
    plainAssignments (some count) rest = true ↔
      count ≤ 1 ∧ plainAssignments none rest = true := by
  cases rest with
  | nil => simp [plainAssignments]
  | cons lexeme later =>
      cases lexeme with
      | word run => exact absurd rfl (noWord run later)
      | mark token => simp [plainAssignments]

/-- Assignments in a row lie in the span of the first only if there are no others. -/
theorem EnvBuilt.alone {assignment : EnvAssignment CommandList}
    {later : List (EnvAssignment CommandList)}
    (built : EnvBuilt input before after (assignment :: later)) :
    (∀ other ∈ assignment :: later, other.span.Within assignment.span) ↔ later = [] := by
  constructor
  · intro within
    cases later with
    | nil => rfl
    | cons second others =>
        have inside := within second (List.mem_cons_of_mem _ List.mem_cons_self)
        have sorted := built.row.sorted
        rw [List.map_cons, List.map_cons, List.pairwise_cons] at sorted
        have behind := sorted.1 second.span List.mem_cons_self
        have first := built.lt second (List.mem_cons_of_mem _ List.mem_cons_self)
        exact absurd (Nat.lt_of_lt_of_le first inside.2) (Nat.not_lt.mpr behind)
  · rintro rfl other member
    cases List.mem_singleton.mp member
    exact ⟨Nat.le_refl _, Nat.le_refl _⟩

/-- Assignments alone have the span of the first, so that there may be no others. -/
theorem EnvBuilt.nests_alone {assignment : EnvAssignment CommandList}
    {later : List (EnvAssignment CommandList)}
    (built : EnvBuilt input before after (assignment :: later)) :
    SimpleCommand.Nests input
        ⟨assignment :: later, ⟨[], .empty assignment.span.start⟩, [], [], assignment.span⟩ ↔
      (∀ other ∈ assignment :: later, other.value.span.Within other.span) ∧ later = [] := by
  have on := built.row.on assignment.span List.mem_cons_self
  constructor
  · intro nests
    refine ⟨fun other member => (nests.env other member).within, built.alone.mp ?_⟩
    intro other member
    refine nests.words.within other.span (List.mem_cons_of_mem _ ?_)
    exact List.mem_append_left _ (List.mem_map_of_mem member)
  · rintro ⟨within, rfl⟩
    have empty : Row input assignment.span.start assignment.span.start
        [.empty assignment.span.start] :=
      Row.one ⟨Nat.le_refl _, on.start, on.start⟩ (Nat.le_refl _) (Nat.le_refl _)
    have alone : Row input assignment.span.start assignment.span.stop [assignment.span] :=
      Row.one on (Nat.le_refl _) (Nat.le_refl _)
    have words := empty.append alone (Nat.le_refl _) (Nat.le_refl _) on.le
    have targets : Row input assignment.span.start assignment.span.stop [] := Row.nil
    exact {
      on := on
      words := words.holds
      targets := targets.holds
      apart := fun _ _ _ nothing => absurd nothing List.not_mem_nil
      inner := List.forall_mem_append.mpr ⟨words.on, targets.on⟩
      env := fun other member => ⟨built.row.on _ (List.mem_map_of_mem member),
        built.values other member, within other member⟩ }

theorem assignments_built {env : List (EnvAssignment CommandList)} {span : Span}
    (built : EnvBuilt input before after env) (nonempty : env ≠ [])
    (first : before.rest.head?.map (·.span) = some span)
    (noWord : ∀ run later, after.lexemes ≠ .word run :: later) :
    Judged input before after span
      (SimpleCommand.Nests input ⟨env, ⟨[], .empty span.start⟩, [], [], span⟩) none := by
  obtain ⟨assignment, later, rfl⟩ := List.exists_cons_of_ne_nil nonempty
  have same := built.first assignment rfl
  rw [first] at same
  cases same
  have row := built.row
  have begins : assignment.span.start = before.here := by
    obtain ⟨token, head, is⟩ := Option.map_eq_some_iff.mp first
    obtain ⟨rest, stands⟩ := List.head?_eq_some_iff.mp head
    rw [Tokens.here_cons stands, is]
  refine ⟨⟨built.walks, row.on _ List.mem_cons_self, begins, row.upper _ List.mem_cons_self⟩, ?_⟩
  rw [built.plain 0, plain_alone noWord, built.nests_alone, and_assoc, Nat.zero_add,
    List.length_cons, Nat.succ_le_succ_iff, Nat.le_zero, List.length_eq_zero_iff]

/-! A command with a name -/

section Named

variable {named tailed : Tokens} {env : List (EnvAssignment CommandList)} {name : Word CommandList}
  {args : List (Word CommandList)} {redirections : List (Redirection CommandList)} {ends : Span}

theorem EnvBuilt.words (laid : before.Laid input) (built : EnvBuilt input before named env)
    (nameBuilt : Built input named tailed name.span) (last : name.span.stop = tailed.reached)
    (tail : TailBuilt input tailed after name.span ends (args.map (·.span))
      (targetSpans redirections)) :
    Row input before.here ends.stop (env.map (·.span) ++ [name.span] ++ args.map (·.span)) := by
  have through := nameBuilt.walks.reached_le (built.walks.laid laid)
  have front := built.row.walks built.walks laid nameBuilt.row through
  exact front.walks (built.walks.trans nameBuilt.walks) laid tail.argRow (last ▸ tail.grows)

theorem EnvBuilt.named_on (laid : before.Laid input) (built : EnvBuilt input before named env)
    (nameBuilt : Built input named tailed name.span)
    (tail : TailBuilt input tailed after name.span ends (args.map (·.span))
      (targetSpans redirections)) : Span.On input ⟨before.here, ends.stop⟩ := by
  refine ⟨?_, laid.here_boundary, tail.on.stop⟩
  have lower := built.walks.here_le laid
  rw [← nameBuilt.begins] at lower
  exact Nat.le_trans lower (Nat.le_trans nameBuilt.on.le tail.grows)

/-- Only a value may lie elsewhere than it should. -/
theorem EnvBuilt.nests_named (laid : before.Laid input) (built : EnvBuilt input before named env)
    (proper : name.parts.isEmpty = false) (nameBuilt : Built input named tailed name.span)
    (last : name.span.stop = tailed.reached)
    (tail : TailBuilt input tailed after name.span ends (args.map (·.span))
      (targetSpans redirections)) :
    SimpleCommand.Nests input ⟨env, name, args, redirections, ⟨before.here, ends.stop⟩⟩ ↔
      ∀ assignment ∈ env, assignment.value.span.Within assignment.span := by
  have inside := nameBuilt.walks.laid (built.walks.laid laid)
  have row := built.words laid nameBuilt last tail
  have start := (built.walks.trans nameBuilt.walks).here_le laid
  have targets := tail.targetRow.mono start (Nat.le_refl _)
  have words : SimpleCommand.words ⟨env, name, args, redirections, ⟨before.here, ends.stop⟩⟩ =
      env.map (·.span) ++ [name.span] ++ args.map (·.span) := by
    unfold SimpleCommand.words
    rw [if_neg (by rw [proper]; exact Bool.false_ne_true), List.append_assoc]
    rfl
  constructor
  · exact fun nests assignment member => (nests.env assignment member).within
  · intro within
    refine ⟨built.named_on laid nameBuilt tail, ?_, targets.holds, ?_, ?_, ?_⟩
    · rw [words]
      exact row.holds
    · intro word member target is
      rw [words, List.mem_append] at member
      rcases member with former | arg
      · have front := built.row.walks built.walks laid nameBuilt.row
          (nameBuilt.walks.reached_le (built.walks.laid laid))
        have behind := Nat.le_trans (front.upper word former) inside.reached_le_here
        exact Or.inl (Nat.le_trans behind (tail.targetRow.lower target is))
      · exact tail.apart word arg target is
    · rw [words]
      exact List.forall_mem_append.mpr ⟨row.on, targets.on⟩
    · exact fun assignment member => ⟨built.row.on _ (List.mem_map_of_mem member),
        built.values assignment member, within assignment member⟩

end Named

theorem Tokens.Laid.merge_first (ends : Span) (laid : before.Laid input)
    (walks : Walks before after)
    (moves : before.reached < after.reached) (begins : before.here ≤ ends.start)
    (stops : after.reached ≤ ends.stop) :
    Span.merge ((before.rest.head?.map (·.span)).getD (.empty 0)) ends =
      ⟨before.here, ends.stop⟩ := by
  obtain ⟨token, rest, stands⟩ := walks.exists_token moves
  have stop_le := walks.stop_le laid stands moves
  rw [Tokens.here_cons stands] at begins ⊢
  rw [stands]
  exact Span.merge_eq begins (Nat.le_trans stop_le stops)

theorem parseSimpleCommand_built {command : SimpleCommand CommandList} (laid : before.Laid input)
    (parsed : parseSimpleCommand before = .ok (command, after)) :
    Judged input before after command.span (command.Nests input) none := by
  obtain ⟨⟨env, named⟩, assigned, afterEnv⟩ := bind_eq_ok.mp parsed
  obtain ⟨more, same, built⟩ := parseEnv_built laid assigned
  obtain ⟨-, -, -, -, -, notAssigned⟩ := parseEnv_sound laid.sound assigned
  rw [List.nil_append] at same
  subst same
  obtain ⟨⟨name, tailed⟩, read, afterName⟩ := bind_eq_ok.mp afterEnv
  have there := built.walks.laid laid
  rcases parseWord_sound there.sound read with ⟨word, run, rfl, reads, -, head⟩ | ⟨rfl, rfl, noWord⟩
  · obtain ⟨nameBuilt, lt, last, proper⟩ := parseWord_built there read
    have inside := nameBuilt.walks.laid there
    obtain ⟨⟨tail, final⟩, followed, returned⟩ := bind_eq_ok.mp afterName
    obtain ⟨args, redirections, sameArgs, same, tailBuilt⟩ :=
      parseTail_built inside nameBuilt.on (Nat.le_of_eq last) followed
    obtain ⟨front, args', redirections', -, -, tailReads, tailOf⟩ :=
      parseTail_sound inside.sound followed
    cases returned
    rw [List.nil_append] at sameArgs same
    have walks := built.walks.trans nameBuilt.walks
    have here := built.walks.here_le laid
    have behind := laid.reached_le_here
    have begins := nameBuilt.begins
    have start_le : word.span.start ≤ tail.endSpan.start := tailBuilt.start_le
    have span := laid.merge_first tail.endSpan walks (by omega) (by omega)
      (last ▸ tailBuilt.grows)
    dsimp only
    rw [sameArgs, same, span]
    refine ⟨⟨walks.trans tailBuilt.walks, built.named_on laid nameBuilt tailBuilt, rfl,
      tailBuilt.le⟩, ?_⟩
    rw [built.plain 0, built.nests_named laid proper nameBuilt last tailBuilt, reads.lexemes_eq,
      List.singleton_append, plainAssignments, if_neg, tailReads.lexemes_eq, plain_tail tailOf]
    rw [reads.notAssignment head notAssigned]
    exact Bool.false_ne_true
  · dsimp only at afterName
    split at afterName
    · rename_i nonempty
      cases afterName
      obtain ⟨assignment, later, rfl⟩ := List.exists_cons_of_ne_nil nonempty
      have first := built.first assignment rfl
      rw [first]
      exact assignments_built built nonempty first (Tokens.lexemes_notWord noWord)
    · cases afterName

/-! ## Jobs -/

/-- Behind a mark it does not matter whether a command began in front of it. -/
theorem Reads.plain_mark {token : Token Char} (reads : Reads before [.mark token] after)
    (opens : Bool) : plainAssignments (commandState opens) before.lexemes =
      plainAssignments (commandState token.kind.opensCommand) after.lexemes := by
  rw [reads.lexemes_eq, List.singleton_append]
  cases opens <;> rfl

/-- A row of nodes, and what they say about the assignments that have been consumed. -/
structure RowBuilt {A : Type} (input : List Char) (before after : Tokens) (spanOf : A → Span)
    (nests : A → Prop) (start state : Option Nat) (more : List A) : Prop where
  walks : Walks before after
  row : Row input before.here after.reached (more.map spanOf)
  plain : plainAssignments start before.lexemes = true ↔
    (∀ node ∈ more, nests node) ∧ plainAssignments state after.lexemes = true

namespace RowBuilt

variable {A : Type} {spanOf : A → Span} {nests : A → Prop} {start state : Option Nat}
  {more : List A}

theorem nothing
    (same : plainAssignments start before.lexemes = plainAssignments state before.lexemes) :
    RowBuilt input before before spanOf nests start state [] where
  walks := Walks.refl _
  row := Row.nil
  plain := by
    rw [same]
    exact (and_iff_right fun _ none => absurd none List.not_mem_nil).symm

theorem skip (laid : before.Laid input) (walks : Walks before middle)
    (same : plainAssignments start before.lexemes = plainAssignments (some 0) middle.lexemes)
    (later : RowBuilt input middle after spanOf nests (some 0) state more) :
    RowBuilt input before after spanOf nests start state more where
  walks := walks.trans later.walks
  row := later.row.mono (walks.here_le laid) (Nat.le_refl _)
  plain := by rw [same, later.plain]

theorem cons {node : A} {between : Option Nat} (laid : before.Laid input)
    (judged : Judged input before middle (spanOf node) (nests node) between)
    (later : RowBuilt input middle after spanOf nests between state more) :
    RowBuilt input before after spanOf nests (some 0) state (node :: more) where
  walks := judged.walks.trans later.walks
  row := judged.row.walks judged.walks laid later.row
    (later.walks.reached_le (judged.walks.laid laid))
  plain := by rw [judged.plain, later.plain, List.forall_mem_cons, and_assoc]

theorem map {B : Type} {f : B → A} {more : List B}
    (built : RowBuilt input before after (fun node => spanOf (f node)) (fun node => nests (f node))
      start state more) :
    RowBuilt input before after spanOf nests start state (more.map f) where
  walks := built.walks
  row := by
    rw [List.map_map]
    exact built.row
  plain := by rw [built.plain, List.forall_mem_map]

end RowBuilt

theorem parsePipes_built {commands commands' : List (SimpleCommand CommandList)} {fuel : Nat}
    (laid : before.Laid input)
    (parsed : parsePipes commands fuel before = .ok (commands', after)) :
    ∃ more, commands' = commands ++ more ∧ RowBuilt input before after SimpleCommand.span
      (SimpleCommand.Nests input) none none more := by
  induction fuel generalizing commands before with
  | zero => cases parsed
  | succ fuel ih =>
      rw [parsePipes] at parsed
      split at parsed
      · rename_i piped
        obtain ⟨token, rest, stands, -⟩ := Tokens.of_peekKind piped
        obtain ⟨span, mark⟩ := Reads.peeked piped rfl
        have there := laid.advance stands
        obtain ⟨⟨next, reached⟩, read, parsed⟩ := bind_eq_ok.mp parsed
        have judged := parseSimpleCommand_built there read
        obtain ⟨more, rfl, built⟩ := ih (judged.walks.laid there) parsed
        exact ⟨next :: more, List.append_assoc _ _ _,
          (RowBuilt.cons there judged built).skip laid (Walks.one stands)
            (mark.plain_mark false)⟩
      · cases parsed
        exact ⟨[], (List.append_nil _).symm, RowBuilt.nothing rfl⟩

end Trees

end OddJobs.Shell
