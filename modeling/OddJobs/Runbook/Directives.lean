import OddJobs.Runbook.Template

/-!
# Consts in library files

A library file is text until its consts are known: `%{ if const.name == "x" }`,
`%{ else }` and `%{ endif }` lines keep or strip blocks of lines, and
`${raw(const.name)}` and `${const.name}` are replaced in the rest.
-/

namespace OddJobs

open Library

abbrev ConstValues := HashMap String

/-- A line that directs which of the others are kept. -/
inductive Directive where
  /-- Whether the const has to equal the literal, or to differ from it. -/
  | ifConst (name : List Char) (equal : Bool) (literal : List Char)
  | elseBranch
  | endif
  deriving DecidableEq, Repr

namespace Directive

/-- `%{`, where a `~` may follow and then white space. -/
def opening (text : List Char) : Option (List Char) := do
  let text ← Pattern.literal ['%', '{'] text
  return Pattern.spaces (Pattern.optional '~' text)

/-- White space and a `}`, where a `~` may stand before it. -/
def closing (text : List Char) : Option (List Char) :=
  Pattern.literal ['}'] (Pattern.optional '~' (Pattern.spaces text))

/-- `==` or `!=`. -/
def comparison : Pattern Bool
  | '=' :: '=' :: rest => some (true, rest)
  | '!' :: '=' :: rest => some (false, rest)
  | _ => none

def quoted (text : List Char) : Option (List Char × List Char) := do
  let text ← Pattern.literal ['\"'] text
  let rest ← Pattern.literal ['\"'] (text.dropWhile (· != '\"'))
  return (text.takeWhile (· != '\"'), rest)

def ifPattern : Pattern Directive := fun text => do
  let text ← opening text
  let text ← Pattern.literal ['i', 'f'] text
  let text ← Pattern.someSpaces text
  let text ← Pattern.literal ['c', 'o', 'n', 's', 't', '.'] text
  let (name, text) ← Pattern.identifier Template.isNameStart Template.isNameChar text
  let (equal, text) ← comparison (Pattern.spaces text)
  let (literal, text) ← quoted (Pattern.spaces text)
  let rest ← closing text
  return (ifConst name equal literal, rest)

def wordPattern (word : List Char) (directive : Directive) : Pattern Directive := fun text => do
  let text ← opening text
  let text ← Pattern.literal word text
  let rest ← closing text
  return (directive, rest)

def elsePattern : Pattern Directive := wordPattern ['e', 'l', 's', 'e'] elseBranch

def endifPattern : Pattern Directive := wordPattern ['e', 'n', 'd', 'i', 'f'] endif

def read (line : List Char) : Option Directive :=
  (Pattern.search ifPattern line).or
    ((Pattern.search elsePattern line).or (Pattern.search endifPattern line))

/-- Whether the comparison holds; a const without a value is empty. -/
def condition (values : ConstValues) (name : List Char) (equal : Bool) (literal : List Char) :
    Bool :=
  let value := (values[String.ofList name]?).getD ""
  if equal then value.toList == literal else !(value.toList == literal)

end Directive

/-- A level of the stack: whether its lines are kept, and whether its else was seen. -/
structure DirectiveLevel where
  active : Bool
  elseSeen : Bool
  deriving DecidableEq, Repr

/-- The lines kept so far and the open levels, the innermost first. -/
structure DirectiveState where
  keptLines : List (List Char) := []
  stack : List DirectiveLevel := []
  deriving DecidableEq, Repr

namespace DirectiveState

def isActive (stack : List DirectiveLevel) : Bool :=
  match stack.head? with
  | some level => level.active
  | none => true

def step (values : ConstValues) (state : DirectiveState) (line : List Char) :
    Except String DirectiveState :=
  match Directive.read line with
  | some (.ifConst name equal literal) =>
      -- only active if the parent is active
      .ok { state with
        stack :=
          { active := isActive state.stack && Directive.condition values name equal literal
            elseSeen := false } :: state.stack }
  | some .elseBranch =>
      match state.stack with
      | [] => .error "else without matching if"
      | level :: parents =>
          if level.elseSeen then .error "duplicate else"
          else
            .ok { state with
              stack :=
                { active := isActive parents && !level.active
                  elseSeen := true } :: parents }
  | some .endif =>
      match state.stack with
      | [] => .error "endif without matching if"
      | _ :: parents => .ok { state with stack := parents }
  | none =>
      if isActive state.stack then .ok { state with keptLines := state.keptLines ++ [line] }
      else .ok state

end DirectiveState

def processConstDirectives (values : ConstValues) (content : List Char) :
    Except String (List Char) := do
  let state ← (content.splitOn '\n').foldlM (DirectiveState.step values) {}
  if state.stack.isEmpty then return ['\n'].intercalate state.keptLines
  else throw "unclosed if directive"

structure ConstRef where
  name : List Char
  written : List Char
  deriving DecidableEq, Repr

def constRefPattern (before after : List Char) : Pattern ConstRef := fun text => do
  let text ← Pattern.literal before text
  let (name, text) ← Pattern.identifier Template.isNameStart Template.isNameChar text
  let rest ← Pattern.literal after text
  return ({ name, written := before ++ name ++ after }, rest)

/-- `${raw(const.name)}` -/
def rawConstPattern : Pattern ConstRef := constRefPattern "$\x7braw(const.".toList ")\x7d".toList

/-- `${const.name}` -/
def constPattern : Pattern ConstRef := constRefPattern "$\x7bconst.".toList "\x7d".toList

def renderConst (values : ConstValues) (render : List Char → List Char) (ref : ConstRef) :
    List Char :=
  match values[String.ofList ref.name]? with
  | some value => render value.toList
  | none => ref.written

/-- Interpolate const values into library content: directives first, then raw
values, then shell-escaped values. -/
def interpolateConsts (values : ConstValues) (content : List Char) : Except String (List Char) := do
  let content ← processConstDirectives values content
  let content := Pattern.replaceAll rawConstPattern (renderConst values id) content
  return Pattern.replaceAll constPattern (renderConst values escapeForShell) content

end OddJobs
