import OddJobs.Library.Results
import OddJobs.Runbook.Directives

/-!
# Nested conditionals

What the if, else and endif lines of a text say by their nesting, and that one pass over the
lines with a stack of levels keeps the same lines.
-/

namespace OddJobs

open Library

structure ConstTest where
  name : List Char
  equal : Bool
  literal : List Char
  deriving DecidableEq, Repr

def ConstTest.holds (values : ConstValues) (test : ConstTest) : Bool :=
  Directive.condition values test.name test.equal test.literal

/-- Lines, some of them in the branches of conditionals. -/
inductive Conditionals where
  | nil
  | line (text : List Char) (rest : Conditionals)
  | ifThen (test : ConstTest) (body rest : Conditionals)
  | ifElse (test : ConstTest) (body otherwise rest : Conditionals)
  deriving DecidableEq, Repr

/-- A branch of a conditional: its test, and whether the test has to hold. -/
structure Branch where
  test : ConstTest
  holds : Bool
  deriving DecidableEq, Repr

def Branch.isSelected (values : ConstValues) (branch : Branch) : Bool :=
  branch.test.holds values == branch.holds

/-- A line and the branches around it, the innermost first. -/
structure PlacedLine where
  text : List Char
  enclosing : List Branch
  deriving DecidableEq, Repr

namespace Conditionals

def kept (values : ConstValues) : Conditionals → List (List Char)
  | nil => []
  | line text rest => text :: kept values rest
  | ifThen test body rest =>
      (if test.holds values then kept values body else []) ++ kept values rest
  | ifElse test body otherwise rest =>
      (if test.holds values then kept values body else kept values otherwise) ++ kept values rest

def placed (enclosing : List Branch) : Conditionals → List PlacedLine
  | nil => []
  | line text rest => ⟨text, enclosing⟩ :: placed enclosing rest
  | ifThen test body rest => placed (⟨test, true⟩ :: enclosing) body ++ placed enclosing rest
  | ifElse test body otherwise rest =>
      placed (⟨test, true⟩ :: enclosing) body ++ placed (⟨test, false⟩ :: enclosing) otherwise ++
        placed enclosing rest

/-- The lines of a text are nested properly, with at most one else for each if. -/
inductive Nested : List (List Char) → Conditionals → Prop where
  | nil : Nested [] nil
  | line {text : List Char} {later : List (List Char)} {rest : Conditionals} :
      Directive.read text = none → Nested later rest → Nested (text :: later) (line text rest)
  | ifThen {opening closing : List Char} {inner later : List (List Char)} {test : ConstTest}
      {body rest : Conditionals} :
      Directive.read opening = some (.ifConst test.name test.equal test.literal) →
      Nested inner body → Directive.read closing = some .endif → Nested later rest →
        Nested (opening :: (inner ++ closing :: later)) (ifThen test body rest)
  | ifElse {opening middle closing : List Char} {inner others later : List (List Char)}
      {test : ConstTest} {body otherwise rest : Conditionals} :
      Directive.read opening = some (.ifConst test.name test.equal test.literal) →
      Nested inner body → Directive.read middle = some .elseBranch →
      Nested others otherwise → Directive.read closing = some .endif → Nested later rest →
        Nested (opening :: (inner ++ middle :: (others ++ closing :: later)))
          (ifElse test body otherwise rest)

/-! ## Which lines are kept -/

variable {values : ConstValues}

/-- A line is kept where every branch around it is selected. -/
theorem kept_placed (enclosing : List Branch) (conditionals : Conditionals) :
    ((conditionals.placed enclosing).filter fun line =>
        line.enclosing.all (·.isSelected values)).map (·.text) =
      if enclosing.all (·.isSelected values) then conditionals.kept values else [] := by
  induction conditionals generalizing enclosing with
  | nil =>
      rw [placed, kept, ite_self]
      rfl
  | line text rest ih =>
      rw [placed, kept, List.filter_cons]
      by_cases selected : enclosing.all (·.isSelected values) = true
      · rw [if_pos selected, if_pos selected, List.map_cons, ih, if_pos selected]
      · rw [if_neg selected, if_neg selected, ih, if_neg selected]
  | ifThen test body rest bodyIh restIh =>
      rw [placed, kept, List.filter_append, List.map_append, bodyIh, restIh, List.all_cons,
        Branch.isSelected, beq_true]
      by_cases selected : enclosing.all (·.isSelected values) = true
      · rw [if_pos selected, if_pos selected, selected, Bool.and_true]
      · rw [if_neg selected, if_neg selected, Bool.eq_false_iff.mpr selected, Bool.and_false,
          if_neg Bool.false_ne_true, List.append_nil]
  | ifElse test body otherwise rest bodyIh otherIh restIh =>
      rw [placed, kept, List.filter_append, List.filter_append, List.map_append, List.map_append,
        bodyIh, otherIh, restIh, List.all_cons, List.all_cons, Branch.isSelected,
        Branch.isSelected, beq_true, beq_false]
      by_cases selected : enclosing.all (·.isSelected values) = true
      · rw [if_pos selected, if_pos selected, selected, Bool.and_true, Bool.and_true]
        cases test.holds values with
        | true => exact congrArg (· ++ _) (List.append_nil _)
        | false => rfl
      · rw [if_neg selected, if_neg selected, Bool.eq_false_iff.mpr selected, Bool.and_false,
          Bool.and_false, if_neg Bool.false_ne_true, if_neg Bool.false_ne_true]
        rfl

/-! ## One pass over the lines -/

def keep (values : ConstValues) (state : DirectiveState) (conditionals : Conditionals) :
    DirectiveState :=
  { state with
    keptLines := state.keptLines ++
      if DirectiveState.isActive state.stack then conditionals.kept values else [] }

section Steps

variable {state : DirectiveState} {line : List Char}

theorem step_ifConst {test : ConstTest}
    (directs : Directive.read line = some (.ifConst test.name test.equal test.literal)) :
    DirectiveState.step values state line = .ok { state with
      stack := ⟨DirectiveState.isActive state.stack && test.holds values, false⟩ ::
        state.stack } := by
  rw [DirectiveState.step, directs]
  rfl

theorem step_elseBranch {level : DirectiveLevel} {parents : List DirectiveLevel}
    (directs : Directive.read line = some .elseBranch) (open_ : state.stack = level :: parents)
    (first : level.elseSeen = false) :
    DirectiveState.step values state line = .ok { state with
      stack := ⟨DirectiveState.isActive parents && !level.active, true⟩ :: parents } := by
  rw [DirectiveState.step, directs]
  dsimp only
  rw [open_]
  exact if_neg (Bool.eq_false_iff.mp first)

theorem step_endif {level : DirectiveLevel} {parents : List DirectiveLevel}
    (directs : Directive.read line = some .endif) (open_ : state.stack = level :: parents) :
    DirectiveState.step values state line = .ok { state with stack := parents } := by
  rw [DirectiveState.step, directs]
  dsimp only
  rw [open_]

theorem step_line (plain : Directive.read line = none) :
    DirectiveState.step values state line = .ok { state with
      keptLines := state.keptLines ++ if DirectiveState.isActive state.stack then [line] else [] } := by
  rw [DirectiveState.step, plain]
  dsimp only
  split
  · rfl
  · rw [List.append_nil]

end Steps

/-- Nested lines are read level by level: they keep what they say, and leave the stack. -/
theorem Nested.foldlM {lines : List (List Char)} {conditionals : Conditionals}
    (nested : Nested lines conditionals) (state : DirectiveState) :
    lines.foldlM (DirectiveState.step values) state = .ok (keep values state conditionals) := by
  induction nested generalizing state with
  | nil =>
      rw [keep, kept, ite_self, List.append_nil]
      rfl
  | @line text later rest plain nested ih =>
      rw [foldlM_cons_of_ok later (step_line plain), ih]
      simp only [keep, kept]
      split <;> simp
  | @ifThen opening closing inner later test body rest opens _ closes _ bodyIh restIh =>
      rw [foldlM_cons_of_ok _ (step_ifConst opens), foldlM_append_of_ok _ (bodyIh _),
        foldlM_cons_of_ok _ (step_endif closes rfl), restIh]
      have same (level : DirectiveLevel) :
          DirectiveState.isActive (level :: state.stack) = level.active := rfl
      simp only [keep, kept, same]
      cases DirectiveState.isActive state.stack <;> cases test.holds values <;> simp
  | @ifElse opening middle closing inner others later test body otherwise rest opens _ turns _
      closes _ bodyIh otherIh restIh =>
      rw [foldlM_cons_of_ok _ (step_ifConst opens), foldlM_append_of_ok _ (bodyIh _),
        foldlM_cons_of_ok _ (step_elseBranch turns rfl rfl), foldlM_append_of_ok _ (otherIh _),
        foldlM_cons_of_ok _ (step_endif closes rfl), restIh]
      have same (level : DirectiveLevel) :
          DirectiveState.isActive (level :: state.stack) = level.active := rfl
      simp only [keep, kept, same]
      cases DirectiveState.isActive state.stack <;> cases test.holds values <;> simp

/-! ## Lines that close what is open -/

/-- Lines that close the open levels: for each, whether its else was seen. -/
inductive Closes : List Bool → List (List Char) → Prop where
  | done {lines : List (List Char)} {conditionals : Conditionals} :
      Nested lines conditionals → Closes [] lines
  | endif {front later : List (List Char)} {closing : List Char} {body : Conditionals}
      (elseSeen : Bool) {parents : List Bool} : Nested front body →
      Directive.read closing = some .endif → Closes parents later →
        Closes (elseSeen :: parents) (front ++ closing :: later)
  | elseBranch {front others later : List (List Char)} {middle closing : List Char}
      {body otherwise : Conditionals} {parents : List Bool} : Nested front body →
      Directive.read middle = some .elseBranch → Nested others otherwise →
      Directive.read closing = some .endif → Closes parents later →
        Closes (false :: parents) (front ++ middle :: (others ++ closing :: later))

/-- Nested lines in front of those that close the levels are part of the innermost. -/
theorem Closes.extend {later : List (List Char)} {levels : List Bool}
    (closes : Closes levels later) (front : List (List Char))
    (extend : ∀ {lines : List (List Char)} {conditionals : Conditionals},
      Nested lines conditionals → ∃ more, Nested (front ++ lines) more) :
    Closes levels (front ++ later) := by
  cases closes with
  | done nested =>
      obtain ⟨more, extended⟩ := extend nested
      exact Closes.done extended
  | endif elseSeen nested closing rest =>
      obtain ⟨more, extended⟩ := extend nested
      rw [← List.append_assoc]
      exact Closes.endif elseSeen extended closing rest
  | elseBranch nested turns others closing rest =>
      obtain ⟨more, extended⟩ := extend nested
      rw [← List.append_assoc]
      exact Closes.elseBranch extended turns others closing rest

/-- What is read to the end with no level left open closes all of them. -/
theorem closes_of_foldlM {lines : List (List Char)} {state final : DirectiveState}
    (read : lines.foldlM (DirectiveState.step values) state = .ok final)
    (closed : final.stack = []) : Closes (state.stack.map (·.elseSeen)) lines := by
  induction lines generalizing state with
  | nil =>
      cases read
      rw [closed]
      exact Closes.done Nested.nil
  | cons line lines ih =>
      obtain ⟨next, stepped, read⟩ := foldlM_cons_ok read
      have later := ih read
      rcases directs : Directive.read line with _ | ⟨name, equal, literal⟩ | _ | _
      · cases (step_line directs).symm.trans stepped
        exact later.extend [line] fun nested => ⟨_, Nested.line directs nested⟩
      · let test : ConstTest := ⟨name, equal, literal⟩
        have opens : Directive.read line =
            some (.ifConst test.name test.equal test.literal) := directs
        cases (step_ifConst opens).symm.trans stepped
        cases later with
        | @endif front later closing body elseSeen parents nested closes rest =>
            have whole (lines : List (List Char)) : line :: (front ++ closing :: lines) =
                (line :: (front ++ [closing])) ++ lines := by simp
            rw [whole]
            refine rest.extend _ fun nestedToo => ?_
            rw [← whole]
            exact ⟨_, Nested.ifThen opens nested closes nestedToo⟩
        | @elseBranch front others later middle closing body otherwise parents nested turns
            nestedOthers closes rest =>
            have whole (lines : List (List Char)) :
                line :: (front ++ middle :: (others ++ closing :: lines)) =
                  (line :: (front ++ middle :: (others ++ [closing]))) ++ lines := by simp
            rw [whole]
            refine rest.extend _ fun nestedToo => ?_
            rw [← whole]
            exact ⟨_, Nested.ifElse opens nested turns nestedOthers closes nestedToo⟩
      · rw [DirectiveState.step, directs] at stepped
        rcases stack : state.stack with _ | ⟨level, parents⟩
        · rw [stack] at stepped
          cases stepped
        · rw [stack] at stepped
          dsimp only at stepped
          split at stepped
          · cases stepped
          · rename_i first
            cases stepped
            rw [List.map_cons, Bool.eq_false_iff.mpr first]
            cases later with
            | endif elseSeen nested closes rest =>
                exact Closes.elseBranch Nested.nil directs nested closes rest
      · rw [DirectiveState.step, directs] at stepped
        rcases stack : state.stack with _ | ⟨level, parents⟩
        · rw [stack] at stepped
          cases stepped
        · rw [stack] at stepped
          cases stepped
          exact Closes.endif level.elseSeen Nested.nil directs later

end Conditionals

open Conditionals

/-- The pass over a text succeeds exactly where its conditionals are nested properly, and
keeps the lines all of whose branches are selected. -/
theorem processConstDirectives_nested (values : ConstValues) (content : List Char) :
    (∀ result, processConstDirectives values content = .ok result ↔
      ∃ conditionals, Nested (content.splitOn '\n') conditionals ∧
        result = ['\n'].intercalate (conditionals.kept values)) ∧
      ∀ conditionals : Conditionals, conditionals.kept values =
        ((conditionals.placed []).filter fun line =>
          line.enclosing.all (·.isSelected values)).map (·.text) := by
  constructor
  · intro result
    rw [processConstDirectives, bind_eq_ok]
    constructor
    · rintro ⟨final, read, returned⟩
      split at returned
      · rename_i closed
        cases returned
        have closes := closes_of_foldlM read (List.isEmpty_iff.mp closed)
        cases closes with
        | done nested =>
            rename_i conditionals
            cases (nested.foldlM {}).symm.trans read
            exact ⟨conditionals, nested, rfl⟩
      · cases returned
    · rintro ⟨conditionals, nested, rfl⟩
      exact ⟨_, nested.foldlM {}, rfl⟩
  · intro conditionals
    exact (kept_placed [] conditionals).symm

end OddJobs
