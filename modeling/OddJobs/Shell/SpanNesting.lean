import OddJobs.Shell.Sentences
import OddJobs.Shell.TreeSpans

/-!
# When spans nest

Lists, chains, items, jobs and groups are merged from the spans of what they are made of, which
stand in a row.  So the spans of a tree nest exactly where its assignments are plain.
-/

namespace OddJobs.Shell

open Library

/-- What the functions of the parser build with the fuel has its spans in order, up to the
assignments that have been consumed. -/
structure NestsAt (input : List Char) (fuel : Nat) : Prop where
  chains : ∀ {inner commands commands' before after}, before.Laid input →
    parseChains inner commands fuel before = .ok (commands', after) →
    ∃ more, commands' = commands ++ more ∧
      RowBuilt input before after AndOrList.span (AndOrNests input) (some 0) none more
  list : ∀ {inner list before after}, before.Laid input → before.rest ≠ [] →
    parseCommandListImpl inner fuel before = .ok (list, after) →
    Walks before after ∧ list.span.On input ∧ list.span.start = before.here ∧
      list.span.stop ≤ after.here ∧
      (plainAssignments (some 0) before.lexemes = true ↔
        ListNests input list ∧ plainAssignments none after.lexemes = true)
  andOr : ∀ {andOr before after}, before.Laid input →
    parseAndOrList fuel before = .ok (andOr, after) →
    Judged input before after andOr.span (AndOrNests input andOr)
      (commandState andOr.lastWasBackground)
  operators : ∀ {rest rest' before after}, before.Laid input →
    parseOperators rest fuel before = .ok (rest', after) →
    ∃ more, rest' = rest ++ more ∧
      RowBuilt input before after (·.2.span) (fun operand => ItemNests input operand.2) none
        (commandState ((more.getLast?.map (·.2.background)).getD false)) more
  operand : ∀ {rest rest' op before after}, before.Laid input →
    parseOperand rest op fuel before = .ok (rest', after) →
    ∃ more, rest' = rest ++ more ∧
      RowBuilt input before after (·.2.span) (fun operand => ItemNests input operand.2) (some 0)
        (commandState ((more.getLast?.map (·.2.background)).getD false)) more
  item : ∀ {item before after}, before.Laid input →
    parseCommandItem fuel before = .ok (item, after) →
    Judged input before after item.span (ItemNests input item) (commandState item.background)
  job : ∀ {command before after}, before.Laid input →
    parseJob fuel before = .ok (command, after) →
    Judged input before after command.span (CommandNests input command) none
  compound : ∀ {delimiter command before after mark}, before.Laid input →
    before.rest ≠ [] →
    Reads before [.mark ⟨CompoundDelimiter.openingToken delimiter, mark⟩] before.advance →
    parseCompoundCommand delimiter fuel before = .ok (command, after) →
    Judged input before after command.span (CommandNests input command) none

section Steps

variable {input : List Char} {fuel : Nat} {before after : Tokens}

/-! ## Items -/

theorem itemNests_iff {item : CommandItem CommandList} (on : item.span.On input)
    (within : item.command.span.Within item.span) :
    ItemNests input item ↔ CommandNests input item.command := by
  constructor
  · rintro ⟨-, -, nests⟩
    exact nests
  · exact ItemNests.mk on within

theorem parseCommandItem_built (below : NestsAt input fuel) {item : CommandItem CommandList}
    (laid : before.Laid input) (parsed : parseCommandItem (fuel + 1) before = .ok (item, after)) :
    Judged input before after item.span (ItemNests input item) (commandState item.background) := by
  rw [parseCommandItem] at parsed
  obtain ⟨⟨command, middle⟩, read, afterJob⟩ := bind_eq_ok.mp parsed
  have judged := below.job laid read
  have on := judged.on
  have there := judged.walks.laid laid
  dsimp only at afterJob
  split at afterJob
  · rename_i span parts proper rest stands
    cases afterJob
    have mark := there.placed stands
    have behind : command.span.stop ≤ span.start :=
      Nat.le_trans judged.ends (there.behind _ (by rw [stands]; exact List.mem_cons_self))
    have reads : Reads middle [.mark ⟨.ampersand, span⟩] middle.advance := Reads.mark stands rfl
    have ends : middle.advance.reached = span.stop := by
      rw [Tokens.advance_eq stands]
      rfl
    have stop_le : command.span.stop ≤ span.stop := Nat.le_trans behind mark.on.le
    have merged : command.span.merge span = ⟨command.span.start, span.stop⟩ :=
      Span.merge_eq (Nat.le_trans on.le behind) stop_le
    rw [merged]
    have whole : Span.On input ⟨command.span.start, span.stop⟩ :=
      ⟨Nat.le_trans on.le stop_le, on.start, mark.on.stop⟩
    refine ⟨⟨judged.walks.trans (Walks.one stands), whole, judged.begins,
      Nat.le_of_eq ends.symm⟩, ?_⟩
    rw [judged.plain, itemNests_iff whole ⟨Nat.le_refl _, stop_le⟩]
    exact and_congr_right' (iff_of_eq (congrArg (· = true) (reads.plain_mark false)))
  · cases afterJob
    have same : command.span.merge command.span = command.span :=
      Span.merge_eq (Nat.le_refl _) (Nat.le_refl _)
    rw [same]
    refine ⟨judged.toBuilt, ?_⟩
    rw [judged.plain, itemNests_iff on ⟨Nat.le_refl _, Nat.le_refl _⟩]
    exact Iff.rfl

/-! ## Jobs -/

theorem parseJob_built (below : NestsAt input fuel) {command : Command CommandList}
    (laid : before.Laid input) (parsed : parseJob (fuel + 1) before = .ok (command, after)) :
    Judged input before after command.span (CommandNests input command) none := by
  rw [parseJob] at parsed
  have group (delimiter : CompoundDelimiter)
      (peeked : before.peekKind = some delimiter.openingToken)
      (parsed : parseCompoundCommand delimiter fuel before = .ok (command, after)) :
      Judged input before after command.span (CommandNests input command) none := by
    obtain ⟨mark, reads⟩ := Reads.peeked peeked (by cases delimiter <;> rfl)
    obtain ⟨token, rest, stands, -⟩ := Tokens.of_peekKind peeked
    exact below.compound laid (by rw [stands]; exact List.cons_ne_nil _ _) reads parsed
  split at parsed
  · rename_i peeked
    exact group .paren peeked parsed
  · rename_i peeked
    exact group .brace peeked parsed
  · obtain ⟨⟨first, middle⟩, read, afterFirst⟩ := bind_eq_ok.mp parsed
    have judged := parseSimpleCommand_built laid read
    dsimp only at afterFirst
    split at afterFirst
    · obtain ⟨⟨commands, reached⟩, followed, returned⟩ := bind_eq_ok.mp afterFirst
      obtain ⟨more, rfl, built⟩ := parsePipes_built (judged.walks.laid laid) followed
      cases returned
      have whole := RowBuilt.cons laid judged built
      have row := whole.row
      rw [List.map_cons] at row
      obtain ⟨on, begins, ends, holds⟩ := row.merged
      have last : ((([first] ++ more).getLast?.map (·.span)).getD first.span) =
          ((more.map (·.span)).getLast?.getD first.span) := by
        rw [List.singleton_append, List.getLast?_cons, List.getLast?_map]
        cases more.getLast? <;> rfl
      rw [last]
      refine ⟨⟨whole.walks, on, begins.trans judged.begins, ends⟩, ?_⟩
      rw [whole.plain]
      refine and_congr_left' ⟨fun nests => CommandNests.job on holds nests, ?_⟩
      rintro (_ | ⟨-, -, nests⟩)
      exact nests
    · cases afterFirst
      refine ⟨judged.toBuilt, ?_⟩
      rw [judged.plain]
      refine and_congr_left' ⟨CommandNests.simple, ?_⟩
      rintro ⟨nests⟩
      exact nests

/-! ## Chains -/

theorem parseOperand_built (below : NestsAt input fuel)
    {rest rest' : List (LogicalOp × CommandItem CommandList)} {op : LogicalOp}
    (laid : before.Laid input)
    (parsed : parseOperand rest op (fuel + 1) before = .ok (rest', after)) :
    ∃ more, rest' = rest ++ more ∧
      RowBuilt input before after (·.2.span) (fun operand => ItemNests input operand.2) (some 0)
        (commandState ((more.getLast?.map (·.2.background)).getD false)) more := by
  rw [parseOperand] at parsed
  obtain ⟨⟨item, middle⟩, read, afterItem⟩ := bind_eq_ok.mp parsed
  have judged := below.item laid read
  dsimp only at afterItem
  split at afterItem
  · cases afterItem
    exact ⟨[(op, item)], rfl, RowBuilt.cons laid judged (RowBuilt.nothing rfl)⟩
  · rename_i foreground
    rw [Bool.not_eq_true] at foreground
    rw [foreground] at judged
    obtain ⟨more, rfl, built⟩ := below.operators (judged.walks.laid laid) afterItem
    have last : ((((op, item) :: more).getLast?.map (·.2.background)).getD false) =
        ((more.getLast?.map (·.2.background)).getD false) := by
      rw [List.getLast?_cons]
      cases more.getLast? with
      | none => exact foreground
      | some operand => rfl
    refine ⟨(op, item) :: more, List.append_assoc _ _ _, ?_⟩
    rw [last]
    exact RowBuilt.cons laid judged built

theorem parseOperators_built (below : NestsAt input fuel)
    {rest rest' : List (LogicalOp × CommandItem CommandList)} (laid : before.Laid input)
    (parsed : parseOperators rest (fuel + 1) before = .ok (rest', after)) :
    ∃ more, rest' = rest ++ more ∧
      RowBuilt input before after (·.2.span) (fun operand => ItemNests input operand.2) none
        (commandState ((more.getLast?.map (·.2.background)).getD false)) more := by
  rw [parseOperators] at parsed
  have withOp (op : LogicalOp) (peeked : before.peekKind = some op.token)
      (parsed : parseOperand rest op fuel before.advance = .ok (rest', after)) :
      ∃ more, rest' = rest ++ more ∧
        RowBuilt input before after (·.2.span) (fun operand => ItemNests input operand.2) none
          (commandState ((more.getLast?.map (·.2.background)).getD false)) more := by
    obtain ⟨mark, reads⟩ := Reads.peeked peeked (by cases op <;> rfl)
    obtain ⟨token, others, stands, -⟩ := Tokens.of_peekKind peeked
    obtain ⟨more, same, built⟩ := below.operand (laid.advance stands) parsed
    refine ⟨more, same, built.skip laid (Walks.one stands) ?_⟩
    have opens := reads.plain_mark false
    cases op <;> exact opens
  split at parsed
  · rename_i peeked
    exact withOp .and peeked parsed
  · rename_i peeked
    exact withOp .or peeked parsed
  · cases parsed
    exact ⟨[], (List.append_nil _).symm, RowBuilt.nothing rfl⟩

theorem andOrNests_iff {andOr : AndOrList CommandList} (on : andOr.span.On input)
    (holds : andOr.span.Holds (andOr.items.map (·.span))) :
    AndOrNests input andOr ↔ ∀ item ∈ andOr.items, ItemNests input item := by
  constructor
  · rintro ⟨-, -, nests⟩
    exact nests
  · exact AndOrNests.mk on holds

theorem parseAndOrList_built (below : NestsAt input fuel) {andOr : AndOrList CommandList}
    (laid : before.Laid input) (parsed : parseAndOrList (fuel + 1) before = .ok (andOr, after)) :
    Judged input before after andOr.span (AndOrNests input andOr)
      (commandState andOr.lastWasBackground) := by
  rw [parseAndOrList] at parsed
  obtain ⟨⟨first, middle⟩, read, afterFirst⟩ := bind_eq_ok.mp parsed
  have judged := below.item laid read
  dsimp only at afterFirst
  split at afterFirst
  · cases afterFirst
    refine ⟨judged.toBuilt, ?_⟩
    have alone := Row.one judged.on (Nat.le_refl _) (Nat.le_refl _)
    rw [judged.plain, andOrNests_iff judged.on alone.holds]
    exact and_congr_left' List.forall_mem_singleton.symm
  · rename_i foreground
    rw [Bool.not_eq_true] at foreground
    rw [foreground] at judged
    obtain ⟨⟨rest, reached⟩, followed, returned⟩ := bind_eq_ok.mp afterFirst
    obtain ⟨more, same, built⟩ := below.operators (judged.walks.laid laid) followed
    cases returned
    rw [List.nil_append] at same
    subst same
    have whole : RowBuilt input before _ CommandItem.span (ItemNests input) (some 0) _ _ :=
      RowBuilt.cons laid judged built.map
    have row := whole.row
    rw [List.map_cons] at row
    obtain ⟨on, begins, ends, holds⟩ := row.merged
    have last : (rest.getLast?.map (·.2.span)).getD first.span =
        ((rest.map (·.2)).map CommandItem.span).getLast?.getD first.span := by
      rw [List.map_map, List.getLast?_map]
      rfl
    have background : AndOrList.lastWasBackground
          (⟨first, rest, first.span.merge
            (((rest.map (·.2)).map CommandItem.span).getLast?.getD first.span)⟩ :
            AndOrList CommandList) =
        (rest.getLast?.map (·.2.background)).getD false := by
      unfold AndOrList.lastWasBackground
      cases rest.getLast? with
      | none => exact foreground
      | some operand => rfl
    rw [last, background]
    refine ⟨⟨whole.walks, on, begins.trans judged.begins, ends⟩, ?_⟩
    rw [whole.plain, andOrNests_iff on holds]
    rfl

/-! ## Lists -/

theorem skipSeparators_walks (before : Tokens) : Walks before before.skipSeparators := by
  fun_induction Tokens.skipSeparators before with
  | case1 => exact Walks.refl _
  | case2 before token rest stands separates ih => exact Walks.step stands ih
  | case3 => exact Walks.refl _

/-- Behind a separator a command begins. -/
theorem plain_separators {marks : List (Token Char)}
    (all : ∀ token ∈ marks, token.kind.isSeparator = true) (rest : List Lexeme) :
    plainAssignments (some 0) (marks.map .mark ++ rest) = plainAssignments (some 0) rest := by
  induction marks with
  | nil => rfl
  | cons token marks ih =>
      have separator := all token List.mem_cons_self
      have opens : token.kind.opensCommand = true := by
        cases kind : token.kind <;> rw [kind] at separator <;> first | rfl | cases separator
      rw [List.map_cons, List.cons_append, plainAssignments, opens]
      exact ih fun other member => all other (List.mem_cons_of_mem token member)

theorem plain_skip (before : Tokens) : plainAssignments (some 0) before.lexemes =
    plainAssignments (some 0) before.skipSeparators.lexemes := by
  obtain ⟨marks, reads, all, -⟩ := skipSeparators_reads before
  rw [reads.lexemes_eq, plain_separators all]

/-- Where no word follows, it does not matter whether a command begins. -/
theorem plain_notWord {rest : List Lexeme} (noWord : ∀ run later, rest ≠ .word run :: later)
    (opens : Bool) :
    plainAssignments (commandState opens) rest = plainAssignments (some 0) rest := by
  cases opens with
  | true => rfl
  | false =>
      rw [Bool.eq_iff_iff, plain_alone noWord]
      exact (and_iff_right (Nat.zero_le 1)).symm

/-- A chain of a list stops where no word follows. -/
theorem Tokens.stops_notWord {tokens : Tokens}
    (stops : tokens.atEnd = true ∨ tokens.atSeparator = true ∨ tokens.atGroupEnd = true) :
    ∀ run later, tokens.lexemes ≠ .word run :: later := by
  refine Tokens.lexemes_notWord fun token rest stands => ?_
  unfold Tokens.atEnd Tokens.atSeparator Tokens.atGroupEnd Tokens.peekKind at stops
  rw [stands] at stops
  cases kind : token.kind <;> simp_all [TokenKind.isWordPart]

theorem parseChains_built (below : NestsAt input fuel) {inner : Bool}
    {commands commands' : List (AndOrList CommandList)} (laid : before.Laid input)
    (parsed : parseChains inner commands (fuel + 1) before = .ok (commands', after)) :
    ∃ more, commands' = commands ++ more ∧
      RowBuilt input before after AndOrList.span (AndOrNests input) (some 0) none more := by
  rw [parseChains] at parsed
  split at parsed
  · rename_i stopped
    cases parsed
    have stops : before.atEnd = true ∨ before.atSeparator = true ∨ before.atGroupEnd = true := by
      rcases Bool.or_eq_true_iff.mp stopped with ended | group
      · exact Or.inl ended
      · exact Or.inr (Or.inr (Bool.and_eq_true_iff.mp group).2)
    have noWord := Tokens.stops_notWord stops
    exact ⟨[], (List.append_nil _).symm, RowBuilt.nothing (plain_notWord noWord false).symm⟩
  · obtain ⟨⟨andOr, middle⟩, read, afterChain⟩ := bind_eq_ok.mp parsed
    have judged := below.andOr laid read
    have there := judged.walks.laid laid
    dsimp only at afterChain
    split at afterChain
    · cases afterChain
    · rename_i notRefused
      have walks := skipSeparators_walks middle
      obtain ⟨more, rfl, built⟩ := below.chains (walks.laid there) afterChain
      refine ⟨andOr :: more, List.append_assoc _ _ _,
        RowBuilt.cons laid judged (built.skip there walks ?_)⟩
      rw [← plain_skip]
      by_cases background : andOr.lastWasBackground = true
      · rw [background]
        rfl
      · refine plain_notWord (Tokens.stops_notWord ?_) _
        revert notRefused background
        cases andOr.lastWasBackground <;> cases middle.atSeparator <;> cases middle.atEnd <;>
          cases inner <;> cases middle.atGroupEnd <;> decide

/-- Where the parser stands before a token or has consumed one, it ends a span there. -/
theorem Walks.currentSpanEnd (walks : Walks before after) (stands : before.rest ≠ []) :
    after.currentSpanEnd = after.reached := by
  unfold Tokens.currentSpanEnd Tokens.reached
  cases last : after.last with
  | some token => rfl
  | none =>
      cases walks with
      | refl =>
          dsimp only
          rw [if_neg (by rw [List.isEmpty_iff]; exact stands)]
          rfl
      | step stood walks =>
          have some := walks.last_isSome (by rw [Tokens.advance_eq stood]; rfl)
          rw [last] at some
          cases some

theorem listNests_iff {commands : List (AndOrList CommandList)} {span : Span} (on : span.On input)
    (holds : span.Holds (commands.map (·.span))) :
    ListNests input ⟨commands, span⟩ ↔ ∀ andOr ∈ commands, AndOrNests input andOr := by
  constructor
  · rintro ⟨-, -, nests⟩
    exact nests
  · exact ListNests.mk on holds

theorem parseCommandListImpl_built (below : NestsAt input fuel) {inner : Bool} {list : CommandList}
    (laid : before.Laid input) (stands : before.rest ≠ [])
    (parsed : parseCommandListImpl inner (fuel + 1) before = .ok (list, after)) :
    Walks before after ∧ list.span.On input ∧ list.span.start = before.here ∧
      list.span.stop ≤ after.here ∧
      (plainAssignments (some 0) before.lexemes = true ↔
        ListNests input list ∧ plainAssignments none after.lexemes = true) := by
  rw [parseCommandListImpl] at parsed
  obtain ⟨⟨commands, middle⟩, read, returned⟩ := bind_eq_ok.mp parsed
  have skips := skipSeparators_walks before
  obtain ⟨more, same, built⟩ := below.chains (skips.laid laid) read
  have whole := built.skip laid skips (plain_skip before)
  cases returned
  rw [List.nil_append] at same
  subst same
  have there := whole.walks.laid laid
  have start : before.currentSpanStart = before.here := by
    obtain ⟨token, rest, is⟩ := List.exists_cons_of_ne_nil stands
    rw [Tokens.here_cons is, Tokens.currentSpanStart, is]
    rfl
  dsimp only [CommandList.span]
  rw [start, whole.walks.currentSpanEnd stands]
  have on : Span.On input ⟨before.here, max after.reached before.here⟩ := by
    refine ⟨Nat.le_max_right _ _, laid.here_boundary, ?_⟩
    rcases Nat.le_total after.reached before.here with le | le
    · exact (Nat.max_eq_right le).symm ▸ laid.here_boundary
    · exact (Nat.max_eq_left le).symm ▸ there.boundary
  refine ⟨whole.walks, on, rfl, ?_, ?_⟩
  · exact Nat.max_le.mpr ⟨there.reached_le_here, whole.walks.here_le laid⟩
  · rw [whole.plain, listNests_iff on (whole.row.mono (Nat.le_refl _) (Nat.le_max_left _ _)).holds]

/-! ## Groups -/

theorem groupNests_iff {delimiter : CompoundDelimiter} {body : CommandList}
    {redirections : List (Redirection CommandList)} {span : Span} (on : span.On input)
    (holds : span.Holds (body.span :: targetSpans redirections))
    (targets : ∀ target ∈ targetSpans redirections, target.On input) :
    CommandNests input (delimiter.build body redirections span) ↔ ListNests input body := by
  cases delimiter with
  | paren =>
      constructor
      · rintro (_ | _ | ⟨-, -, -, nests⟩)
        exact nests
      · exact CommandNests.subshell on holds targets
  | brace =>
      constructor
      · rintro (_ | _ | _ | ⟨-, -, -, nests⟩)
        exact nests
      · exact CommandNests.braceGroup on holds targets

theorem CompoundDelimiter.span_build (delimiter : CompoundDelimiter) (body : CommandList)
    (redirections : List (Redirection CommandList)) (span : Span) :
    (delimiter.build body redirections span).span = span := by
  cases delimiter <;> rfl

theorem parseCompoundCommand_built (below : NestsAt input fuel) {delimiter : CompoundDelimiter}
    {command : Command CommandList} {mark : Span} (laid : before.Laid input)
    (stands : before.rest ≠ [])
    (opens : Reads before [.mark ⟨delimiter.openingToken, mark⟩] before.advance)
    (parsed : parseCompoundCommand delimiter (fuel + 1) before = .ok (command, after)) :
    Judged input before after command.span (CommandNests input command) none := by
  rw [parseCompoundCommand] at parsed
  obtain ⟨⟨body, middle⟩, read, afterBody⟩ := bind_eq_ok.mp parsed
  obtain ⟨opening, others, first⟩ := List.exists_cons_of_ne_nil stands
  have there := laid.advance first
  have start : before.currentSpanStart = before.here := by
    rw [Tokens.here_cons first, Tokens.currentSpanStart, first]
    rfl
  obtain ⟨front, bodyReads, -⟩ := (soundAt fuel).list there.sound read
  dsimp only at afterBody
  split at afterBody
  · rename_i token rest second
    have inner : before.advance.rest ≠ [] := by
      rintro none
      have suffix := bodyReads.suffix
      rw [none, second, List.suffix_nil] at suffix
      cases suffix
    obtain ⟨walks, on, begins, ends, plain⟩ := below.list there inner read
    have within := walks.laid there
    rw [Tokens.here_cons second] at ends
    split at afterBody
    · rename_i closes
      obtain ⟨⟨⟨redirections, stop⟩, reached⟩, followed, returned⟩ := bind_eq_ok.mp afterBody
      have placed := within.placed second
      have closing := within.advance second
      have passed : middle.advance.reached = token.span.stop := by
        rw [Tokens.advance_eq second]
        rfl
      obtain ⟨more, same, redirects, row, grows, le, boundary⟩ :=
        parseRedirections_built closing (Nat.le_of_eq passed.symm) placed.on.stop followed
      obtain ⟨front, more', -, redirectReads, of⟩ := parseRedirections_sound closing.sound followed
      cases returned
      rw [List.nil_append] at same
      subst same
      have moves := (Walks.one first).here_le laid
      have behind := closing.reached_le_here
      rw [passed] at behind
      have front_le : before.here ≤ body.span.start := begins ▸ moves
      have open_le : before.here ≤ token.span.start :=
        Nat.le_trans front_le (Nat.le_trans on.le ends)
      have close_le := Nat.le_trans placed.on.le grows
      have inside : Row input before.here token.span.start [body.span] := Row.one on front_le ends
      have whole := inside.append row (Nat.le_trans placed.on.le behind)
        (Nat.le_trans open_le (Nat.le_trans placed.on.le behind)) close_le
      have group : Span.On input ⟨before.here, stop⟩ :=
        ⟨Nat.le_trans open_le close_le, laid.here_boundary, boundary⟩
      have opened : plainAssignments (some 0) before.lexemes =
          plainAssignments (some 0) before.advance.lexemes :=
        (opens.plain_mark true).trans (by cases delimiter <;> rfl)
      have other : token.kind.isWordPart = false := by
        rw [closes]
        cases delimiter <;> rfl
      have ended : token.token.kind.opensCommand = false := by
        rw [show token.token.kind = _ from closes]
        cases delimiter <;> rfl
      have closed : plainAssignments none middle.lexemes =
          plainAssignments none middle.advance.lexemes := by
        have mark := (Reads.mark second other).plain_mark false
        rw [ended] at mark
        exact mark
      rw [start, delimiter.span_build]
      refine ⟨⟨(Walks.step first walks).trans (Walks.step second redirects), group, rfl, le⟩, ?_⟩
      rw [groupNests_iff group whole.holds row.on, opened, plain, closed, redirectReads.lexemes_eq,
        plain_redirections of]
    · cases afterBody
  · cases afterBody

end Steps

theorem nestsAt (input : List Char) (fuel : Nat) : NestsAt input fuel := by
  induction fuel with
  | zero =>
      constructor <;>
      · intros
        rename_i parsed
        first
        | rw [parseChains] at parsed
        | rw [parseCommandListImpl] at parsed
        | rw [parseAndOrList] at parsed
        | rw [parseOperators] at parsed
        | rw [parseOperand] at parsed
        | rw [parseCommandItem] at parsed
        | rw [parseJob] at parsed
        | rw [parseCompoundCommand] at parsed
        cases parsed
  | succ fuel below =>
      exact {
        chains := parseChains_built below
        list := parseCommandListImpl_built below
        andOr := parseAndOrList_built below
        operators := parseOperators_built below
        operand := parseOperand_built below
        item := parseCommandItem_built below
        job := parseJob_built below
        compound := parseCompoundCommand_built below }

/-! ## Inputs -/

/-- The position in front of all the tokens of an input. -/
theorem tokens_laid {input : List Char} {tokens : List (Token Char)} (inputLen : Nat)
    (read : tokenize input = .ok tokens) :
    Tokens.Laid input ⟨inputLen, none, tokens.map (Token.parsed Parser.parse)⟩ where
  laid := by
    dsimp only
    rw [map_parsed]
    exact tokenize_laid read
  behind := fun _ _ => Nat.zero_le _
  boundary := ⟨[], input, rfl, rfl⟩
  sound := by
    intro token member
    obtain ⟨plain, -, rfl⟩ := List.mem_map.mp member
    exact parsed_sound (fun _ _ _ => trivial) plain

/-- The list of an input without tokens has the span of the input. -/
theorem parseCommandList_nil (inputLen : Nat) :
    parseCommandList inputLen [] = .ok ⟨[], ⟨0, inputLen⟩⟩ := by
  simp [parseCommandList, parseCommandListImpl, parseChains, Tokens.skipSeparators, Tokens.atEnd,
    Tokens.currentSpanStart, Tokens.currentSpanEnd]
  rfl

/-- The spans of what is parsed nest if and only if its assignments are plain. -/
theorem spans_nest_iff {input : List Char} {list : CommandList}
    (parsed : Parser.parse input = .ok list) : ListNests input list ↔ PlainAssignments input := by
  rw [parse_eq] at parsed
  split at parsed
  · cases parsed
  · rename_i tokens read
    have plain : PlainAssignments input ↔ plainAssignments (some 0) (lexemes tokens) = true := by
      constructor
      · rintro ⟨others, again, plain⟩
        rw [read] at again
        cases again
        exact plain
      · exact fun plain => ⟨tokens, read, plain⟩
    rw [plain]
    have laid := tokens_laid (input.map size).sum read
    cases tokens with
    | nil =>
        rw [List.map_nil, parseCommandList_nil] at parsed
        cases parsed
        have on : Span.On input ⟨0, (input.map size).sum⟩ :=
          ⟨Nat.zero_le _, ⟨[], input, rfl, rfl⟩, ⟨input, [], (List.append_nil _).symm, rfl⟩⟩
        have row : Row input 0 (input.map size).sum [] := Row.nil
        rw [lexemes]
        exact iff_of_true (ListNests.mk on row.holds fun _ none => absurd none List.not_mem_nil) rfl
    | cons token others =>
        obtain ⟨⟨found, after⟩, returns, returned⟩ := bind_eq_ok.mp parsed
        cases returned
        have built := mapError_eq_ok.mp returns
        obtain ⟨-, -, -, -, plain⟩ := (nestsAt input _).list laid (List.cons_ne_nil _ _) built
        obtain ⟨-, -, stopped, -⟩ := (soundAt _).list laid.sound built
        have ended : after.rest = [] := by
          rw [Tokens.Stopped, Bool.false_and, Bool.or_false, Tokens.atEnd] at stopped
          exact List.isEmpty_iff.mp stopped
        have lexed : Tokens.lexemes ⟨(input.map size).sum, none,
            (token :: others).map (Token.parsed Parser.parse)⟩ = lexemes (token :: others) := by
          rw [Tokens.lexemes, map_parsed]
        rw [lexed] at plain
        rw [plain, Tokens.lexemes, ended, List.map_nil, lexemes]
        exact (and_iff_left rfl).symm

theorem spans_nest_assignment :
    ∃ list, Parser.parse "A=1 b".toList = .ok list ∧ ListNests "A=1 b".toList list := by
  have accepted : (Parser.parse "A=1 b".toList).isOk = true := by decide +kernel
  rcases parsed : Parser.parse "A=1 b".toList with error | list
  · rw [parsed] at accepted
    cases accepted
  · refine ⟨list, rfl, (spans_nest_iff parsed).mpr ?_⟩
    exact ⟨[⟨.word "A=1".toList, ⟨0, 3⟩⟩, ⟨.word "b".toList, ⟨4, 5⟩⟩], by with_unfolding_all rfl,
      by decide +kernel⟩

/-- A variable in a value ends behind the span of its assignment. -/
theorem spans_fail_variable :
    ∃ list, Parser.parse "A=$B".toList = .ok list ∧ ¬ListNests "A=$B".toList list := by
  have parsed : Parser.parse "A=$B".toList =
      .ok ⟨[⟨⟨.simple ⟨[⟨"A".toList, ⟨[.var "B".toList none], ⟨2, 4⟩⟩, ⟨0, 2⟩⟩], ⟨[], ⟨0, 0⟩⟩,
        [], [],
        ⟨0, 2⟩⟩, false, ⟨0, 2⟩⟩, [], ⟨0, 2⟩⟩], ⟨0, 4⟩⟩ := by
    with_unfolding_all rfl
  refine ⟨_, parsed, ?_⟩
  rintro ⟨-, -, chains⟩
  obtain ⟨-, -, items⟩ := chains _ List.mem_cons_self
  obtain ⟨-, -, command⟩ := items _ List.mem_cons_self
  obtain ⟨nests⟩ := command
  have value := (nests.env _ List.mem_cons_self).within.2
  exact absurd value (by decide)

end OddJobs.Shell
