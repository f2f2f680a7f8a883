import OddJobs.Runbook.Template
import OddJobs.Shell.Expansion
import OddJobs.Shell.Nesting

/-!
# Interpolated values

A value that is put between double quotes is escaped before the command is lexed.  The lexer takes
the escapes away again, whatever the value is.
-/

namespace OddJobs.Shell

/-- Inside a double-quoted string an escaped value is read as literal text. -/
theorem readDoubleQuoted_escaped (start : Nat) (parts : List (WordPart Char (List Char)))
    (value rest literal : List Char) (lastPos pos : Nat) :
    ∃ lastPos' pos', readDoubleQuoted start parts literal false lastPos pos
        (escapeForShell value ++ rest) =
      readDoubleQuoted start parts (literal ++ value) false lastPos' pos' rest := by
  induction value generalizing literal lastPos pos with
  | nil => exact ⟨lastPos, pos, by rw [List.append_nil]; rfl⟩
  | cons c value ih =>
      have split : escapeForShell (c :: value) ++ rest =
          escapeChar c ++ (escapeForShell value ++ rest) := by
        rw [escapeForShell, List.flatMap_cons, List.append_assoc]
        rfl
      have first : ∃ next, readDoubleQuoted start parts literal false lastPos pos
          (escapeChar c ++ (escapeForShell value ++ rest)) = readDoubleQuoted start parts
            (literal ++ [c]) false next next (escapeForShell value ++ rest) := by
        unfold escapeChar
        split
        · next special =>
            refine ⟨pos + size '\\' + size c, ?_⟩
            rw [List.cons_append, readDoubleQuoted.eq_def]
            rcases special with rfl | rfl | rfl | rfl <;> rfl
        · next plain =>
            obtain ⟨backslash, dollar, backtick, quote⟩ :
                c ≠ '\\' ∧ c ≠ '$' ∧ c ≠ '`' ∧ c ≠ '\"' := by
              simpa only [not_or] using plain
            refine ⟨pos + size c, ?_⟩
            rw [List.cons_append, readDoubleQuoted.eq_def]
            exact (if_neg quote).trans ((if_neg backslash).trans ((if_neg dollar).trans
              (if_neg backtick)))
      obtain ⟨_, read⟩ := first
      obtain ⟨lastPos', pos', later⟩ := ih (literal ++ [c]) _ _
      refine ⟨lastPos', pos', ?_⟩
      rw [split, read, later, List.append_assoc]
      rfl

/-- A value that is escaped and put between double quotes is one argument: it is neither expanded
nor split nor taken for a pattern. -/
theorem escaped_value_kept {ε : Type} (around : Surroundings ε) (pathnames : Pathnames ε)
    (context : Context) (value : List Char) :
    ∃ token parts, tokenize ('\"' :: (escapeForShell value ++ ['\"'])) = .ok [token] ∧
      tokenToParts Parser.parse token = .ok parts ∧
      ∀ span, expandWordSplitGlob around pathnames context ⟨parts, span⟩ =
        .ok ([value], context) := by
  obtain ⟨_, stop, read⟩ := readDoubleQuoted_escaped 0 [] value ['\"'] [] 1 1
  have closed : readDoubleQuoted 0 [] [] false 1 1 (escapeForShell value ++ ['\"']) =
      .ok (flushLiteral [] value false, ⟨stop + 1, []⟩) := by
    rw [read]
    exact readDoubleQuoted_close rfl
  refine ⟨⟨.doubleQuoted (flushLiteral [] value false), ⟨0, stop + 1⟩⟩,
    [.literal value .double], ?_, ?_, fun span => rfl⟩
  · refine tokenizeFrom_last (by rintro ⟨⟩) rfl (?_ : nextToken true
      (⟨0, '\"' :: (escapeForShell value ++ ['\"'])⟩ : Cursor Char) =
        .ok (some (_, ⟨stop + 1, []⟩)))
    rw [nextToken_skipped (skipWhitespace_letter (by decide))]
    change (readDoubleQuoted 0 [] [] false 1 1 (escapeForShell value ++ ['\"']) >>= _).map some = _
    rw [closed]
    rfl
  · cases value <;> rfl

end OddJobs.Shell
