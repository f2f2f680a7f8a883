import OddJobs.Core.Base
import OddJobs.Library.Patterns
import OddJobs.Library.Results

/-!
# Argument specifications

A command declares its arguments in one line: positional arguments, flags, options with a value,
and a variadic argument.
-/

namespace OddJobs

open Library

/-- Errors that can occur during argument spec parsing. -/
inductive ArgSpecError where
  | invalidSyntax (message : String)
  | variadicNotLast (name : String)
  | optionalBeforeRequired (name : String)
  | duplicateName (name : String)
  deriving DecidableEq, Repr

structure ArgDef where
  name : String
  required : Bool
  deriving DecidableEq, Repr

structure FlagDef where
  name : String
  short : Option Char
  deriving DecidableEq, Repr

structure OptionDef where
  name : String
  short : Option Char
  required : Bool
  deriving DecidableEq, Repr

/-- A variadic argument definition (accepts multiple values). -/
structure VariadicDef where
  name : String
  required : Bool
  deriving DecidableEq, Repr

structure ArgSpec where
  positional : List ArgDef := []
  flags : List FlagDef := []
  options : List OptionDef := []
  variadic : Option VariadicDef := none
  deriving DecidableEq, Repr

def ArgSpec.names (spec : ArgSpec) : List String :=
  spec.positional.map ArgDef.name ++ spec.options.map OptionDef.name ++
    spec.flags.map FlagDef.name ++ (spec.variadic.map VariadicDef.name).toList

def ArgSpec.shorts (spec : ArgSpec) : List Char :=
  spec.options.filterMap OptionDef.short ++ spec.flags.filterMap FlagDef.short

/-! ## Names of flags -/

def parseFlagNames (flagPart : List Char) : Except ArgSpecError (Option Char × String) :=
  let flagPart := Text.trim flagPart
  if '/' ∈ flagPart then
    match flagPart.splitOn '/' with
    | [shortPart, longPart] =>
        let shortPart := Text.trim shortPart
        let longPart := Text.trim longPart
        if "-".toList.isPrefixOf shortPart && !"--".toList.isPrefixOf shortPart then
          match Pattern.literal "--".toList longPart with
          | some stripped => .ok (shortPart[1]?, String.ofList stripped)
          | none => .error (.invalidSyntax ("invalid long flag: " ++ String.ofList longPart))
        else .error (.invalidSyntax ("invalid short flag: " ++ String.ofList shortPart))
    | _ => .error (.invalidSyntax ("invalid flag syntax: " ++ String.ofList flagPart))
  else
    match Pattern.literal "--".toList flagPart with
    | some stripped => .ok (none, String.ofList stripped)
    | none =>
        if "-".toList.isPrefixOf flagPart then
          match flagPart[1]? with
          | some c => .ok (some c, String.ofList [c])
          | none => .error (.invalidSyntax "empty flag")
        else .error (.invalidSyntax ("flag must start with -: " ++ String.ofList flagPart))

/-! ## Reading -/

structure SpecReading where
  spec : ArgSpec := {}
  seenOptionalPositional : Bool := false
  names : List String := []
  deriving DecidableEq, Repr

namespace SpecReading

variable (reading : SpecReading)

def checkName (name : String) : Except ArgSpecError SpecReading :=
  if name ∈ reading.names then .error (.duplicateName name)
  else .ok { reading with names := name :: reading.names }

def addVariadic (name : String) (required : Bool) : Except ArgSpecError SpecReading := do
  let reading ← reading.checkName name
  if reading.spec.variadic.isSome then .error (.variadicNotLast name)
  else .ok { reading with spec := { reading.spec with variadic := some ⟨name, required⟩ } }

def addRequired (name : String) : Except ArgSpecError SpecReading :=
  if reading.spec.variadic.isSome then .error (.variadicNotLast name)
  else if reading.seenOptionalPositional then .error (.optionalBeforeRequired name)
  else do
    let reading ← reading.checkName name
    let positional := reading.spec.positional ++ [⟨name, true⟩]
    return { reading with spec := { reading.spec with positional } }

def addOptional (name : String) : Except ArgSpecError SpecReading :=
  if reading.spec.variadic.isSome then .error (.variadicNotLast name)
  else do
    let reading ← reading.checkName name
    let positional := reading.spec.positional ++ [⟨name, false⟩]
    return { reading with spec := { reading.spec with positional }, seenOptionalPositional := true }

def parseFlagOrOption (content : List Char) (required : Bool) :
    Except ArgSpecError SpecReading :=
  let content := Text.trim content
  if '<' ∈ content then do
    let (short, name) ← parseFlagNames (Text.trim (content.takeWhile (· != '<')))
    let reading ← reading.checkName name
    let options := reading.spec.options ++ [⟨name, short, required⟩]
    return { reading with spec := { reading.spec with options } }
  else do
    let (short, name) ← parseFlagNames content
    let reading ← reading.checkName name
    let flags := reading.spec.flags ++ [⟨name, short⟩]
    return { reading with spec := { reading.spec with flags } }

end SpecReading

def peekEllipsis : List Char → Bool × List Char
  | '.' :: '.' :: '.' :: rest => (true, rest)
  | chars => (false, chars)

def readUpTo (stop : Char) (chars : List Char) : List Char × List Char :=
  (chars.takeWhile (· != stop), (chars.dropWhile (· != stop)).drop 1)

def readBrackets : Nat → List Char → List Char × List Char
  | _, [] => ([], [])
  | bracketDepth, c :: rest =>
      if c = '[' then (readBrackets (bracketDepth + 1) rest).map (c :: ·) id
      else if c = ']' then
        if bracketDepth = 1 then ([], rest)
        else (readBrackets (bracketDepth - 1) rest).map (c :: ·) id
      else (readBrackets bracketDepth rest).map (c :: ·) id

def endsWithEllipsis (name : List Char) : Bool := "...".toList.isSuffixOf name

def variadicName (name : List Char) : String :=
  String.ofList (Text.trimEndMatches "...".toList name)

/-- `<name>`, `<files...>` or `<files>...`, behind its first bracket. -/
def readAngle (chars : List Char) (reading : SpecReading) :
    Except ArgSpecError (SpecReading × List Char) :=
  let (token, rest) := readUpTo '>' chars
  let name := Text.trim token
  let (trailingEllipsis, rest) := peekEllipsis rest
  let added :=
    if endsWithEllipsis name || trailingEllipsis then reading.addVariadic (variadicName name) true
    else reading.addRequired (String.ofList name)
  added.map (·, rest)

/-- `[name]`, `[files...]`, `[files]...`, `[--flag]` or `[--opt <val>]`, behind the bracket. -/
def readSquare (chars : List Char) (reading : SpecReading) :
    Except ArgSpecError (SpecReading × List Char) :=
  let (token, rest) := readBrackets 1 chars
  let content := Text.trim token
  let (trailingEllipsis, rest) := peekEllipsis rest
  let added :=
    if "-".toList.isPrefixOf content then
      if trailingEllipsis then
        .error (.invalidSyntax ("ellipsis not valid after flag/option: [" ++
          String.ofList content ++ "]..."))
      else reading.parseFlagOrOption content false
    else if endsWithEllipsis content || trailingEllipsis then
      reading.addVariadic (variadicName content) false
    else reading.addOptional (String.ofList content)
  added.map (·, rest)

/-- `--flag` or `--opt <val>`, behind its first dash. -/
def readDash (chars : List Char) (reading : SpecReading) :
    Except ArgSpecError (SpecReading × List Char) :=
  let token := '-' :: chars.takeWhile (!Text.isWhiteSpace ·)
  let rest := Pattern.spaces (chars.dropWhile (!Text.isWhiteSpace ·))
  match rest with
  | '<' :: rest =>
      let (value, rest) := readUpTo '>' rest
      let content := token ++ " <".toList ++ value ++ ">".toList
      (reading.parseFlagOrOption content true).map (·, rest)
  | rest => (reading.parseFlagOrOption token true).map (·, rest)

def readItem (c : Char) (chars : List Char) (reading : SpecReading) :
    Except ArgSpecError (SpecReading × List Char) :=
  if c = '<' then readAngle chars reading
  else if c = '[' then readSquare chars reading
  else if c = '-' then readDash chars reading
  else if Text.isWhiteSpace c then .ok (reading, chars)
  else .error (.invalidSyntax ("unexpected character: " ++ String.ofList [c]))

def readItems : Nat → List Char → SpecReading → Except ArgSpecError SpecReading
  | 0, _, reading => .ok reading
  | _ + 1, [], reading => .ok reading
  | fuel + 1, c :: chars, reading => do
      let (reading, rest) ← readItem c chars reading
      readItems fuel rest reading

def parseArgSpec (spec : String) : Except ArgSpecError ArgSpec := do
  let spec := Text.trim spec.toList
  let reading ← readItems spec.length spec {}
  return reading.spec

/-! ## Every character is read -/

theorem readUpTo_length (stop : Char) (chars : List Char) :
    (readUpTo stop chars).2.length ≤ chars.length := by
  have later := (List.dropWhile_sublist (l := chars) (· != stop)).length_le
  simp only [readUpTo, List.length_drop]
  omega

theorem readBrackets_length (depth : Nat) (chars : List Char) :
    (readBrackets depth chars).2.length ≤ chars.length := by
  induction chars generalizing depth with
  | nil => simp [readBrackets]
  | cons c rest ih =>
      have deeper := ih (depth + 1)
      have outer := ih (depth - 1)
      have same := ih depth
      rw [readBrackets]
      split
      · simp only [Prod.map, id, List.length_cons]
        omega
      · split
        · split <;> simp only [Prod.map, id, List.length_cons] <;> omega
        · simp only [Prod.map, id, List.length_cons]
          omega

theorem peekEllipsis_length (chars : List Char) :
    (peekEllipsis chars).2.length ≤ chars.length := by
  unfold peekEllipsis
  split
  · simp only [List.length_cons]
    omega
  · exact Nat.le_refl _

/-- What an item does to the specification. -/
inductive SpecReading.Adds (reading after : SpecReading) : Prop where
  | variadic (name : String) (required : Bool)
      (added : reading.addVariadic name required = .ok after)
  | required (name : String) (added : reading.addRequired name = .ok after)
  | optional (name : String) (added : reading.addOptional name = .ok after)
  | named (content : List Char) (required : Bool)
      (added : reading.parseFlagOrOption content required = .ok after)
  | space (same : after = reading)

section Items

variable {chars rest : List Char} {reading after : SpecReading}

theorem readAngle_ok (read : readAngle chars reading = .ok (after, rest)) :
    rest.length ≤ chars.length ∧ reading.Adds after := by
  unfold readAngle at read
  obtain ⟨_, added, same⟩ := map_eq_ok.mp read
  cases same
  refine ⟨(peekEllipsis_length _).trans (readUpTo_length '>' chars), ?_⟩
  split_ifs at added
  · exact .variadic _ _ added
  · exact .required _ added

theorem readSquare_ok (read : readSquare chars reading = .ok (after, rest)) :
    rest.length ≤ chars.length ∧ reading.Adds after := by
  unfold readSquare at read
  obtain ⟨_, added, same⟩ := map_eq_ok.mp read
  cases same
  refine ⟨(peekEllipsis_length _).trans (readBrackets_length 1 chars), ?_⟩
  split_ifs at added
  · exact .named _ _ added
  · exact .variadic _ _ added
  · exact .optional _ added

theorem readDash_ok (read : readDash chars reading = .ok (after, rest)) :
    rest.length ≤ chars.length ∧ reading.Adds after := by
  have token := (List.dropWhile_sublist (l := chars) (!Text.isWhiteSpace ·)).length_le
  have space := (List.dropWhile_sublist (l := chars.dropWhile (!Text.isWhiteSpace ·))
    Text.isWhiteSpace).length_le
  unfold readDash at read
  dsimp only at read
  split at read
  · rename_i value opens
    obtain ⟨_, added, same⟩ := map_eq_ok.mp read
    cases same
    refine ⟨?_, .named _ _ added⟩
    have behind := readUpTo_length '>' value
    have length := congrArg List.length opens
    simp only [Pattern.spaces, List.length_cons] at length
    omega
  · obtain ⟨_, added, same⟩ := map_eq_ok.mp read
    cases same
    exact ⟨space.trans token, .named _ _ added⟩

/-- An item leaves no more than stood behind its first character. -/
theorem readItem_ok {c : Char} (read : readItem c chars reading = .ok (after, rest)) :
    rest.length ≤ chars.length ∧ reading.Adds after := by
  unfold readItem at read
  split at read
  · exact readAngle_ok read
  split at read
  · exact readSquare_ok read
  split at read
  · exact readDash_ok read
  split at read
  · cases read
    exact ⟨Nat.le_refl _, .space rfl⟩
  · cases read

end Items

/-! ## Names are declared once -/

/-- The names that have been read are known and different, and no short letter is a dash. -/
structure SpecReading.Sound (reading : SpecReading) : Prop where
  known : ∀ name ∈ reading.spec.names, name ∈ reading.names
  distinct : reading.spec.names.Nodup
  letters : '-' ∉ reading.spec.shorts

/-- What a specification declares that is accepted. -/
structure ArgSpec.Sound (spec : ArgSpec) : Prop where
  distinct : spec.names.Nodup
  letters : '-' ∉ spec.shorts

theorem checkName_ok {reading after : SpecReading} {name : String}
    (checked : reading.checkName name = .ok after) :
    name ∉ reading.names ∧ after = { reading with names := name :: reading.names } := by
  rw [SpecReading.checkName] at checked
  split at checked
  · cases checked
  · cases checked
    exact ⟨‹_›, rfl⟩

/-- A new name keeps the names different, wherever it is put. -/
theorem SpecReading.Sound.add {reading after : SpecReading} {name : String}
    (sound : reading.Sound) (fresh : name ∉ reading.names)
    (known : after.names = name :: reading.names)
    (names : after.spec.names.Perm (name :: reading.spec.names))
    (letters : '-' ∉ after.spec.shorts) : after.Sound where
  known := by
    intro other member
    rw [known]
    rcases List.mem_cons.mp (names.mem_iff.mp member) with rfl | member
    · exact List.mem_cons_self
    · exact List.mem_cons_of_mem _ (sound.known other member)
  distinct := names.nodup_iff.mpr
    (List.nodup_cons.mpr ⟨fun member => fresh (sound.known name member), sound.distinct⟩)
  letters := letters

theorem parseFlagNames_short {flagPart : List Char} {short : Option Char} {name : String}
    (parsed : parseFlagNames flagPart = .ok (short, name)) : short ≠ some '-' := by
  have second : ∀ text : List Char, "--".toList.isPrefixOf text = false →
      "-".toList.isPrefixOf text = true → text[1]? ≠ some '-' := by
    intro text single dash is
    rcases text with _ | ⟨first, _ | ⟨next, rest⟩⟩
    · cases is
    · cases is
    · cases Option.some.inj is
      have first : '-' = first := by simpa [List.isPrefixOf] using dash
      subst first
      simp [List.isPrefixOf] at single
  unfold parseFlagNames at parsed
  dsimp only at parsed
  split at parsed
  · split at parsed
    · split at parsed
      · rename_i dashes
        split at parsed
        · cases parsed
          obtain ⟨dash, single⟩ := (Bool.and_eq_true_iff.mp dashes)
          exact second _ (by simpa using single) dash
        · cases parsed
      · cases parsed
    · cases parsed
  · split at parsed
    · cases parsed
      intro is
      cases is
    · rename_i long
      split at parsed
      · rename_i dash
        split at parsed
        · rename_i c letter
          cases parsed
          rw [← letter]
          refine second _ ?_ dash
          refine Bool.eq_false_iff.mpr fun double => ?_
          rw [Pattern.literal, if_pos double] at long
          cases long
        · cases parsed
      · cases parsed

theorem SpecReading.Sound.adds {reading after : SpecReading} (sound : reading.Sound)
    (adds : reading.Adds after) : after.Sound := by
  cases adds with
  | variadic name required added =>
      obtain ⟨_, checked, added⟩ := bind_eq_ok.mp added
      obtain ⟨fresh, rfl⟩ := checkName_ok checked
      split at added
      · cases added
      · rename_i first
        cases added
        have none : reading.spec.variadic = none := by simpa using first
        refine sound.add fresh rfl ?_ sound.letters
        simp only [ArgSpec.names, none, Option.map_some, Option.map_none, Option.toList_some,
          Option.toList_none, List.append_nil]
        exact List.perm_append_singleton ..
  | required name added =>
      rw [addRequired] at added
      split at added
      · cases added
      · split at added
        · cases added
        · obtain ⟨_, checked, added⟩ := bind_eq_ok.mp added
          obtain ⟨fresh, rfl⟩ := checkName_ok checked
          cases added
          refine sound.add fresh rfl ?_ sound.letters
          simp [ArgSpec.names]
  | optional name added =>
      rw [addOptional] at added
      split at added
      · cases added
      · obtain ⟨_, checked, added⟩ := bind_eq_ok.mp added
        obtain ⟨fresh, rfl⟩ := checkName_ok checked
        cases added
        refine sound.add fresh rfl ?_ sound.letters
        simp [ArgSpec.names]
  | named content required added =>
      rw [parseFlagOrOption] at added
      dsimp only at added
      split at added
      · obtain ⟨⟨short, name⟩, parsed, added⟩ := bind_eq_ok.mp added
        obtain ⟨_, checked, added⟩ := bind_eq_ok.mp added
        obtain ⟨fresh, rfl⟩ := checkName_ok checked
        cases added
        refine sound.add fresh rfl ?_ ?_
        · have moved := @List.perm_middle _ name (reading.spec.positional.map ArgDef.name ++
            reading.spec.options.map OptionDef.name) (reading.spec.flags.map FlagDef.name ++
              (reading.spec.variadic.map VariadicDef.name).toList)
          simpa [ArgSpec.names] using moved
        · have single := parseFlagNames_short parsed
          have letters := sound.letters
          simp only [ArgSpec.shorts, List.mem_append, List.filterMap_append] at letters ⊢
          simpa [single] using letters
      · obtain ⟨⟨short, name⟩, parsed, added⟩ := bind_eq_ok.mp added
        obtain ⟨_, checked, added⟩ := bind_eq_ok.mp added
        obtain ⟨fresh, rfl⟩ := checkName_ok checked
        cases added
        refine sound.add fresh rfl ?_ ?_
        · have moved := @List.perm_middle _ name (reading.spec.positional.map ArgDef.name ++
            reading.spec.options.map OptionDef.name ++ reading.spec.flags.map FlagDef.name)
              (reading.spec.variadic.map VariadicDef.name).toList
          simpa [ArgSpec.names] using moved
        · have single := parseFlagNames_short parsed
          have letters := sound.letters
          simp only [ArgSpec.shorts, List.mem_append, List.filterMap_append] at letters ⊢
          simpa [single] using letters
  | space same => exact same ▸ sound

theorem readItems_sound {fuel : Nat} {chars : List Char} {reading after : SpecReading}
    (sound : reading.Sound) (read : readItems fuel chars reading = .ok after) : after.Sound := by
  induction fuel generalizing chars reading with
  | zero =>
      cases read
      exact sound
  | succ fuel ih =>
      cases chars with
      | nil =>
          cases read
          exact sound
      | cons c chars =>
          obtain ⟨⟨next, rest⟩, item, read⟩ := bind_eq_ok.mp read
          exact ih (sound.adds (readItem_ok item).2) read

/-- An accepted specification declares each name once. -/
theorem parseArgSpec_sound {text : String} {spec : ArgSpec}
    (parsed : parseArgSpec text = .ok spec) : spec.Sound := by
  obtain ⟨reading, read, same⟩ := bind_eq_ok.mp parsed
  cases same
  have begun : SpecReading.Sound {} := ⟨by simp [ArgSpec.names], by simp [ArgSpec.names],
    by simp [ArgSpec.shorts]⟩
  have sound := readItems_sound begun read
  exact ⟨sound.distinct, sound.letters⟩

end OddJobs
