import OddJobs.Library.Map
import OddJobs.Library.Slices
import OddJobs.Runbook.ArgSpec

/-!
# Arguments of commands

The words of a command line are split into positional and named ones, validated, and bound to the
names that the command declares.
-/

namespace OddJobs

open Library

/-- Errors that can occur during argument validation. -/
inductive ArgValidationError where
  | missingPositional (name : String)
  | missingOption (name : String)
  | missingVariadic (name : String)
  | unexpectedPositional (word : String)
  | unknownOption (name : String)
  deriving DecidableEq, Repr

/-! ## Words -/

inductive Setting where
  | option (name : String)
  | flag (name : String)
  deriving DecidableEq, Repr

def Setting.name : Setting → String
  | option name => name
  | flag name => name

structure SplitArgs where
  positional : List String := []
  named : HashMap String := ∅

namespace ArgSpec

variable (spec : ArgSpec)

/-- The option or flag that a word names, a long or a short one. -/
def setting (arg : String) : Option Setting :=
  match Pattern.literal "--".toList arg.toList with
  | some stripped =>
      match spec.options.find? fun opt => opt.name == String.ofList stripped with
      | some opt => some (.option opt.name)
      | none =>
          if spec.flags.any fun flag => flag.name == String.ofList stripped then
            some (.flag (String.ofList stripped))
          else none
  | none =>
      if "-".toList.isPrefixOf arg.toList && Text.size arg.toList == 2 then
        match arg.toList[1]? with
        | none => none
        | some c =>
            match spec.options.find? fun opt => opt.short == some c with
            | some opt => some (.option opt.name)
            | none =>
                (spec.flags.find? fun flag => flag.short == some c).map fun flag => .flag flag.name
      else none

def splitFrom : List String → SplitArgs → SplitArgs
  | [], split => split
  | arg :: rest, split =>
      if arg = "--" then { split with positional := split.positional ++ rest }
      else
        match spec.setting arg with
        | some (.option name) =>
            match rest with
            -- no value follows
            | [] => { split with positional := split.positional ++ [arg] }
            | value :: later =>
                splitFrom later { split with named := split.named.insert name value }
        | some (.flag name) => splitFrom rest { split with named := split.named.insert name "true" }
        | none => splitFrom rest { split with positional := split.positional ++ [arg] }

def splitRawArgs (raw : List String) : SplitArgs := spec.splitFrom raw {}

variable (defaults : HashMap String)

def reject {E : Type} : Option E → Except E Unit
  | none => .ok ()
  | some error => .error error

/-- Validate that all required arguments are provided and no unknown arguments are given. -/
def validateArgs (args : SplitArgs) : Except ArgValidationError Unit := do
  let given := fun name => args.named.contains name || defaults.contains name
  let unknown := args.named.keys.find? fun key => !spec.names.contains key
  reject (unknown.map .unknownOption)
  let missing := spec.positional.zipIdx.find? fun (arg, i) =>
    arg.required && !(args.positional[i]?.isSome || given arg.name)
  reject (missing.map fun (arg, _) => .missingPositional arg.name)
  let missing := spec.options.find? fun opt => opt.required && !given opt.name
  reject (missing.map fun opt => .missingOption opt.name)
  let missing := spec.variadic.filter fun variadic => variadic.required &&
    !(decide (spec.positional.length < args.positional.length) || given variadic.name)
  reject (missing.map fun variadic => .missingVariadic variadic.name)
  let extra := if spec.variadic.isNone then args.positional[spec.positional.length]? else none
  reject (extra.map .unexpectedPositional)

/-- `values.join(" ")`. -/
def joinWords (values : List String) : String :=
  String.ofList ([' '].intercalate (values.map String.toList))

/-- Put entries into a table, one after the other. -/
def insertAll (entries : List (String × String)) (table : HashMap String) : HashMap String :=
  entries.foldl (fun table entry => table.insert entry.1 entry.2) table

def variadicWords (args : SplitArgs) : List String := args.positional.drop spec.positional.length

def parseArgs (args : SplitArgs) : HashMap String :=
  let result := insertAll ((spec.positional.map ArgDef.name).zip args.positional) defaults
  let result :=
    match spec.variadic with
    | some variadic =>
        if spec.positional.length < args.positional.length then
          result.insert variadic.name (joinWords (spec.variadicWords args))
        else result
    | none => result
  -- named args override
  insertAll args.named.toList result

end ArgSpec

def longForm (name : String) : String := "--" ++ name

def shortForm (c : Char) : String := String.ofList ['-', c]

def forms (name : String) (short : Option Char) : List String :=
  longForm name :: (short.map shortForm).toList

namespace ArgSpec

/-! ## What is declared, and what is bound -/

section Properties

variable (spec : ArgSpec)

def entries : List (String × Option Char) :=
  spec.options.map (fun opt => (opt.name, opt.short)) ++
    spec.flags.map fun flag => (flag.name, flag.short)

/-- The words that name an option or a flag. -/
def NamedBy (word : String) : Prop := ∃ entry ∈ spec.entries, word ∈ forms entry.1 entry.2

def takesValue (word : String) : Bool :=
  spec.options.any fun opt => (forms opt.name opt.short).contains word

/-- The words behind the `--` that ends the options, which one that is a value does not. -/
def behindDashes : List String → List String
  | [] => []
  | word :: rest =>
      if word = "--" then rest
      else if spec.takesValue word then
        match rest with
        | [] => []
        | _ :: later => behindDashes later
      else behindDashes rest

def Dangling : List String → Prop
  | [] => False
  | word :: rest =>
      if word = "--" then False
      else if spec.takesValue word then
        match rest with
        | [] => True
        | _ :: later => Dangling later
      else Dangling rest

def requiredNames : List String :=
  (spec.positional.filter ArgDef.required).map ArgDef.name ++
    (spec.options.filter OptionDef.required).map OptionDef.name ++
    ((spec.variadic.filter VariadicDef.required).map VariadicDef.name).toList

/-- The words of a command line are bound as they are declared. -/
structure Binds (defaults : HashMap String) (raw : List String) : Prop where
  required : ∀ name ∈ spec.requiredNames,
    (spec.parseArgs defaults (spec.splitRawArgs raw)).contains name = true
  ordered : (spec.splitRawArgs raw).positional.Sublist raw
  positional : ∀ (i : Nat) (arg : ArgDef) (word : String), spec.positional[i]? = some arg →
    (spec.splitRawArgs raw).positional[i]? = some word →
      (spec.parseArgs defaults (spec.splitRawArgs raw))[arg.name]? = some word
  variadic : ∀ (variadic : VariadicDef) (words : List String), spec.variadic = some variadic →
    spec.variadicWords (spec.splitRawArgs raw) = words → words ≠ [] →
      (spec.parseArgs defaults (spec.splitRawArgs raw))[variadic.name]? = some (joinWords words) ∧
        ((∀ word ∈ words, ' ' ∉ word.toList) →
          (joinWords words).toList.splitOn ' ' = words.map String.toList)
  whole : spec.variadic = none → spec.variadicWords (spec.splitRawArgs raw) = []
  named : ∀ (name value : String), (spec.splitRawArgs raw).named[name]? = some value →
    (spec.parseArgs defaults (spec.splitRawArgs raw))[name]? = some value
  unnamed : ∀ word, spec.NamedBy word →
    (spec.splitRawArgs raw).positional.count word ≤ (spec.behindDashes raw).count word

/-- Every declared flag and option can be set by each of its forms. -/
structure Settable : Prop where
  flag : ∀ flag ∈ spec.flags, ∀ form ∈ forms flag.name flag.short,
    (spec.splitRawArgs [form]).named[flag.name]? = some "true"
  option : ∀ opt ∈ spec.options, ∀ form ∈ forms opt.name opt.short, ∀ value,
    (spec.splitRawArgs [form, value]).named[opt.name]? = some value

/-- The forms are distinct: no name is empty, no letter is shared, and each is one byte. -/
structure Distinct : Prop where
  long : ∀ entry ∈ spec.entries, entry.1 ≠ ""
  byte : ∀ entry ∈ spec.entries, ∀ c, entry.2 = some c → c.utf8Size = 1
  letter : ∀ first ∈ spec.entries, ∀ second ∈ spec.entries, ∀ c,
    first.2 = some c → second.2 = some c → first.1 = second.1

end Properties

variable {spec : ArgSpec}

/-! ## Forms -/

theorem longForm_ne {name : String} (some : name ≠ "") : longForm name ≠ "--" := by
  intro same
  have chars := congrArg String.toList same
  rw [longForm, String.toList_append] at chars
  have none : name.toList = [] := by simpa using chars
  exact some (String.toList_eq_nil_iff.mp none)

theorem shortForm_ne {c : Char} (other : c ≠ '-') : shortForm c ≠ "--" := by
  intro same
  have chars := congrArg String.toList same
  rw [shortForm, String.toList_ofList] at chars
  simp at chars
  exact other chars

theorem setting_long (name : String) :
    spec.setting (longForm name) =
      match spec.options.find? fun opt => opt.name == name with
      | some opt => some (.option opt.name)
      | none =>
          if spec.flags.any fun flag => flag.name == name then some (.flag name) else none := by
  have stripped : Pattern.literal "--".toList (longForm name).toList = some name.toList := by
    rw [longForm, String.toList_append, Pattern.literal]
    simp
  rw [setting, stripped]
  simp only [String.ofList_toList]

theorem setting_short {c : Char} (other : c ≠ '-') (byte : c.utf8Size = 1) :
    spec.setting (shortForm c) =
      match spec.options.find? fun opt => opt.short == some c with
      | some opt => some (.option opt.name)
      | none =>
          (spec.flags.find? fun flag => flag.short == some c).map fun flag => .flag flag.name := by
  have short : Pattern.literal "--".toList (shortForm c).toList = none := by
    rw [shortForm, String.toList_ofList, Pattern.literal]
    simp [Ne.symm other]
  have dash : '-'.utf8Size = 1 := by decide
  rw [setting, short]
  simp [shortForm, byte, dash]

theorem eq_longForm {arg : String} {stripped : List Char}
    (found : Pattern.literal "--".toList arg.toList = some stripped) :
    arg = longForm (String.ofList stripped) := by
  rw [Pattern.literal] at found
  split at found
  · rename_i dashes
    obtain ⟨rest, split⟩ := List.isPrefixOf_iff_prefix.mp dashes
    rw [← split, List.drop_left] at found
    cases found
    apply String.toList_injective
    rw [longForm, String.toList_append, ← split]
    exact congrArg _ String.toList_ofList.symm
  · cases found

theorem eq_shortForm {arg : String} {c : Char}
    (short : ("-".toList.isPrefixOf arg.toList && Text.size arg.toList == 2) = true)
    (letter : arg.toList[1]? = some c) : arg = shortForm c := by
  obtain ⟨dash, size⟩ := Bool.and_eq_true_iff.mp short
  obtain ⟨rest, split⟩ := List.isPrefixOf_iff_prefix.mp dash
  have size : Text.size arg.toList = 2 := by simpa using size
  have one : '-'.utf8Size = 1 := by decide
  rw [← split] at size letter
  cases rest with
  | nil => cases letter
  | cons first more =>
      have same : first = c := by simpa using letter
      subst same
      have positive := first.utf8Size_pos
      simp [one] at size
      have none : more = [] := Text.size_eq_zero.mp (by omega)
      subst none
      apply String.toList_injective
      rw [← split, shortForm, String.toList_ofList, String.toList_ofList]
      rfl

/-- A word that names something is one of its forms. -/
theorem setting_some {arg : String} {named : Setting} (found : spec.setting arg = some named) :
    (∃ opt ∈ spec.options, named = .option opt.name ∧ arg ∈ forms opt.name opt.short) ∨
      ∃ flag ∈ spec.flags, named = .flag flag.name ∧ arg ∈ forms flag.name flag.short := by
  unfold setting at found
  split at found
  · rename_i stripped long
    have is := eq_longForm long
    split at found
    · rename_i opt first
      cases found
      have name : opt.name = String.ofList stripped := by simpa using List.find?_some first
      refine .inl ⟨opt, List.mem_of_find?_eq_some first, rfl, ?_⟩
      rw [is, ← name]
      exact List.mem_cons_self
    · split at found
      · rename_i declared
        cases found
        obtain ⟨flag, member, name⟩ := List.any_eq_true.mp declared
        have name : flag.name = String.ofList stripped := by simpa using name
        refine .inr ⟨flag, member, by rw [name], ?_⟩
        rw [is, ← name]
        exact List.mem_cons_self
      · cases found
  · split at found
    · rename_i short
      split at found
      · cases found
      · rename_i c letter
        have is := eq_shortForm short letter
        split at found
        · rename_i opt first
          cases found
          have has : opt.short = some c := by simpa using List.find?_some first
          refine .inl ⟨opt, List.mem_of_find?_eq_some first, rfl, ?_⟩
          simp [forms, has, is]
        · obtain ⟨flag, first, rfl⟩ := Option.map_eq_some_iff.mp found
          have has : flag.short = some c := by simpa using List.find?_some first
          refine .inr ⟨flag, List.mem_of_find?_eq_some first, rfl, ?_⟩
          simp [forms, has, is]
    · cases found

theorem option_ne_flag (sound : spec.Sound) {opt : OptionDef} {flag : FlagDef}
    (declared : opt ∈ spec.options) (also : flag ∈ spec.flags) : opt.name ≠ flag.name := by
  have names := sound.distinct
  simp only [ArgSpec.names, List.append_assoc] at names
  obtain ⟨-, names, -⟩ := List.nodup_append.mp names
  obtain ⟨-, -, apart⟩ := List.nodup_append.mp names
  exact apart _ (List.mem_map_of_mem declared) _
    (List.mem_append_left _ (List.mem_map_of_mem also))

theorem positional_nodup (sound : spec.Sound) : (spec.positional.map ArgDef.name).Nodup := by
  have names := sound.distinct
  simp only [ArgSpec.names, List.append_assoc] at names
  exact (List.nodup_append.mp names).1

theorem variadic_ne_positional (sound : spec.Sound) {variadic : VariadicDef} {arg : ArgDef}
    (last : spec.variadic = some variadic) (declared : arg ∈ spec.positional) :
    variadic.name ≠ arg.name := by
  have names := sound.distinct
  rw [ArgSpec.names, last] at names
  obtain ⟨-, -, apart⟩ := List.nodup_append.mp names
  refine (apart arg.name ?_ variadic.name (by simp)).symm
  simp only [List.append_assoc]
  exact List.mem_append_left _ (List.mem_map_of_mem declared)

/-- Options and flags have other names than positional and variadic arguments. -/
theorem entry_apart (sound : spec.Sound) {entry : String × Option Char}
    (declared : entry ∈ spec.entries) :
    (∀ arg ∈ spec.positional, entry.1 ≠ arg.name) ∧
      ∀ variadic, spec.variadic = some variadic → entry.1 ≠ variadic.name := by
  have names := sound.distinct
  have listed : entry.1 ∈ spec.options.map OptionDef.name ++ spec.flags.map FlagDef.name := by
    rcases List.mem_append.mp declared with member | member
    · obtain ⟨opt, option, rfl⟩ := List.mem_map.mp member
      exact List.mem_append_left _ (List.mem_map_of_mem option)
    · obtain ⟨flag, flags, rfl⟩ := List.mem_map.mp member
      exact List.mem_append_right _ (List.mem_map_of_mem flags)
  have parts : spec.names = spec.positional.map ArgDef.name ++
      ((spec.options.map OptionDef.name ++ spec.flags.map FlagDef.name) ++
        (spec.variadic.map VariadicDef.name).toList) := by
    simp [ArgSpec.names]
  rw [parts] at names
  obtain ⟨-, rest, first⟩ := List.nodup_append.mp names
  obtain ⟨-, -, second⟩ := List.nodup_append.mp rest
  constructor
  · intro arg member
    exact (first _ (List.mem_map_of_mem member) _ (List.mem_append_left _ listed)).symm
  · intro variadic last
    exact second _ listed _ (by simp [last])

theorem mem_entries_option {opt : OptionDef} (declared : opt ∈ spec.options) :
    (opt.name, opt.short) ∈ spec.entries :=
  List.mem_append_left _ (List.mem_map.mpr ⟨opt, declared, rfl⟩)

theorem mem_entries_flag {flag : FlagDef} (declared : flag ∈ spec.flags) :
    (flag.name, flag.short) ∈ spec.entries :=
  List.mem_append_right _ (List.mem_map.mpr ⟨flag, declared, rfl⟩)

theorem short_ne_dash (sound : spec.Sound) {entry : String × Option Char}
    (declared : entry ∈ spec.entries) {c : Char} (has : entry.2 = some c) : c ≠ '-' := by
  rintro rfl
  apply sound.letters
  rcases List.mem_append.mp declared with member | member
  · obtain ⟨opt, listed, rfl⟩ := List.mem_map.mp member
    exact List.mem_append_left _ (List.mem_filterMap.mpr ⟨opt, listed, has⟩)
  · obtain ⟨flag, listed, rfl⟩ := List.mem_map.mp member
    exact List.mem_append_right _ (List.mem_filterMap.mpr ⟨flag, listed, has⟩)

theorem mem_forms {name form : String} {short : Option Char} :
    form ∈ forms name short ↔ form = longForm name ∨ ∃ c, short = some c ∧ form = shortForm c := by
  cases short <;> simp [forms]

/-- Where the forms are distinct, an option is named by each of its forms. -/
theorem setting_option (sound : spec.Sound) (distinct : spec.Distinct) {opt : OptionDef}
    (declared : opt ∈ spec.options) {form : String} (is : form ∈ forms opt.name opt.short) :
    spec.setting form = some (.option opt.name) := by
  rcases mem_forms.mp is with rfl | ⟨c, has, rfl⟩
  · obtain ⟨other, first⟩ : ∃ other,
        spec.options.find? (fun other => other.name == opt.name) = some other := by
      rw [← Option.isSome_iff_exists, List.find?_isSome]
      exact ⟨opt, declared, by simp⟩
    have name : other.name = opt.name := by simpa using List.find?_some first
    rw [setting_long, first]
    simp only [name]
  · have entry := mem_entries_option declared
    obtain ⟨other, first⟩ : ∃ other,
        spec.options.find? (fun other => other.short == some c) = some other := by
      rw [← Option.isSome_iff_exists, List.find?_isSome]
      exact ⟨opt, declared, by simp [has]⟩
    have short : other.short = some c := by simpa using List.find?_some first
    have name := distinct.letter _ (mem_entries_option (List.mem_of_find?_eq_some first)) _ entry c
      short has
    rw [setting_short (short_ne_dash sound entry has) (distinct.byte _ entry c has), first]
    simp only at name ⊢
    rw [name]

/-- And so is a flag. -/
theorem setting_flag (sound : spec.Sound) (distinct : spec.Distinct) {flag : FlagDef}
    (declared : flag ∈ spec.flags) {form : String} (is : form ∈ forms flag.name flag.short) :
    spec.setting form = some (.flag flag.name) := by
  rcases mem_forms.mp is with rfl | ⟨c, has, rfl⟩
  · have none : spec.options.find? (fun opt => opt.name == flag.name) = none := by
      refine List.find?_eq_none.mpr fun opt member => ?_
      simpa using option_ne_flag sound member declared
    rw [setting_long, none]
    dsimp only
    rw [if_pos (List.any_eq_true.mpr ⟨flag, declared, by simp⟩)]
  · have entry := mem_entries_flag declared
    have none : spec.options.find? (fun opt => opt.short == some c) = none := by
      refine List.find?_eq_none.mpr fun opt member short => ?_
      exact option_ne_flag sound member declared
        (distinct.letter _ (mem_entries_option member) _ entry c (by simpa using short) has)
    obtain ⟨other, first⟩ : ∃ other,
        spec.flags.find? (fun other => other.short == some c) = some other := by
      rw [← Option.isSome_iff_exists, List.find?_isSome]
      exact ⟨flag, declared, by simp [has]⟩
    have short : other.short = some c := by simpa using List.find?_some first
    have name := distinct.letter _ (mem_entries_flag (List.mem_of_find?_eq_some first)) _ entry c
      short has
    rw [setting_short (short_ne_dash sound entry has) (distinct.byte _ entry c has), none, first]
    simp only at name ⊢
    rw [Option.map_some, name]

theorem form_ne_dashes (sound : spec.Sound) (distinct : spec.Distinct)
    {entry : String × Option Char} (declared : entry ∈ spec.entries) {form : String}
    (is : form ∈ forms entry.1 entry.2) : form ≠ "--" := by
  rcases mem_forms.mp is with rfl | ⟨c, has, rfl⟩
  · exact longForm_ne (distinct.long entry declared)
  · exact shortForm_ne (short_ne_dash sound declared has)

theorem setting_namedBy (sound : spec.Sound) (distinct : spec.Distinct) {word : String}
    (named : spec.NamedBy word) : spec.setting word ≠ none := by
  obtain ⟨entry, declared, is⟩ := named
  rcases List.mem_append.mp declared with member | member
  · obtain ⟨opt, listed, rfl⟩ := List.mem_map.mp member
    rw [setting_option sound distinct listed is]
    exact Option.some_ne_none _
  · obtain ⟨flag, listed, rfl⟩ := List.mem_map.mp member
    rw [setting_flag sound distinct listed is]
    exact Option.some_ne_none _

/-- The splitter takes a value for the words that name an option. -/
theorem takesValue_iff (sound : spec.Sound) (distinct : spec.Distinct) {word : String} :
    spec.takesValue word = true ↔ ∃ name, spec.setting word = some (.option name) := by
  simp only [takesValue, List.any_eq_true, List.contains_iff_mem]
  constructor
  · rintro ⟨opt, declared, is⟩
    exact ⟨opt.name, setting_option sound distinct declared is⟩
  · rintro ⟨name, found⟩
    rcases setting_some found with ⟨opt, declared, -, is⟩ | ⟨flag, -, same, -⟩
    · exact ⟨opt, declared, is⟩
    · cases same

/-! ## Splitting -/

/-- Positional words stand in the order of the command line. -/
theorem splitFrom_sublist (raw : List String) (split : SplitArgs) :
    ∃ words, (spec.splitFrom raw split).positional = split.positional ++ words ∧
      words.Sublist raw := by
  fun_induction splitFrom spec raw split with
  | case1 split => exact ⟨[], by simp, List.Sublist.refl _⟩
  | case2 rest split => exact ⟨rest, rfl, List.sublist_cons_self ..⟩
  | case3 arg split notDashes name found => exact ⟨[arg], rfl, List.Sublist.refl _⟩
  | case4 arg split notDashes name found value later ih =>
      obtain ⟨words, same, within⟩ := ih
      exact ⟨words, same, (within.cons value).cons arg⟩
  | case5 arg rest split notDashes name found ih =>
      obtain ⟨words, same, within⟩ := ih
      exact ⟨words, same, within.cons arg⟩
  | case6 arg rest split notDashes found ih =>
      obtain ⟨words, same, within⟩ := ih
      exact ⟨arg :: words, by rw [same, List.append_assoc]; rfl, within.cons_cons arg⟩

theorem setting_declared {arg name : String}
    (found : spec.setting arg = some (.option name) ∨ spec.setting arg = some (.flag name)) :
    ∃ entry ∈ spec.entries, entry.1 = name := by
  rcases found with found | found <;> rcases setting_some found with
    ⟨opt, declared, same, -⟩ | ⟨flag, declared, same, -⟩
  · cases same
    exact ⟨_, mem_entries_option declared, rfl⟩
  · cases same
  · cases same
  · cases same
    exact ⟨_, mem_entries_flag declared, rfl⟩

/-- Only names of options and flags are set. -/
theorem splitFrom_named {raw : List String} {split : SplitArgs} {name : String}
    (set : (spec.splitFrom raw split).named.contains name = true) :
    split.named.contains name = true ∨ ∃ entry ∈ spec.entries, entry.1 = name := by
  fun_induction splitFrom spec raw split with
  | case1 split => exact .inl set
  | case2 rest split => exact .inl set
  | case3 arg split notDashes named found => exact .inl set
  | case4 arg split notDashes named found value later ih =>
      rcases ih set with before | declared
      · rw [Table.contains_insert_iff] at before
        rcases before with rfl | before
        · exact .inr (setting_declared (.inl found))
        · exact .inl before
      · exact .inr declared
  | case5 arg rest split notDashes named found ih =>
      rcases ih set with before | declared
      · rw [Table.contains_insert_iff] at before
        rcases before with rfl | before
        · exact .inr (setting_declared (.inr found))
        · exact .inl before
      · exact .inr declared
  | case6 arg rest split notDashes found ih => exact ih set

theorem behindDashes_dashes (rest : List String) : spec.behindDashes ("--" :: rest) = rest := by
  cases rest <;> simp [behindDashes]

theorem dangling_dashes (rest : List String) : ¬spec.Dangling ("--" :: rest) := by
  cases rest <;> simp [Dangling]

theorem behindDashes_pass {word : String} (rest : List String) (notDashes : word ≠ "--")
    (takes : ¬spec.takesValue word = true) :
    spec.behindDashes (word :: rest) = spec.behindDashes rest := by
  cases rest <;> simp [behindDashes, notDashes, takes]

theorem dangling_pass {word : String} (rest : List String) (notDashes : word ≠ "--")
    (takes : ¬spec.takesValue word = true) :
    spec.Dangling (word :: rest) ↔ spec.Dangling rest := by
  cases rest <;> simp [Dangling, notDashes, takes]

/-- Where no option is left without a value, a word that names something is positional only behind
the `--`. -/
theorem splitFrom_count (sound : spec.Sound) (distinct : spec.Distinct) {raw : List String}
    {split : SplitArgs} {word : String} (named : spec.NamedBy word) (closed : ¬spec.Dangling raw) :
    (spec.splitFrom raw split).positional.count word ≤
      split.positional.count word + (spec.behindDashes raw).count word := by
  fun_induction splitFrom spec raw split with
  | case1 split => simp
  | case2 rest split =>
      rw [behindDashes_dashes]
      exact List.count_append.le
  | case3 arg split notDashes name found =>
      have takes := (takesValue_iff sound distinct).mpr ⟨name, found⟩
      exact absurd (by simp [Dangling, notDashes, takes]) closed
  | case4 arg split notDashes name found value later ih =>
      have takes := (takesValue_iff sound distinct).mpr ⟨name, found⟩
      rw [Dangling, if_neg notDashes, if_pos takes] at closed
      rw [behindDashes, if_neg notDashes, if_pos takes]
      exact ih closed
  | case5 arg rest split notDashes name found ih =>
      have takes : ¬spec.takesValue arg = true := by
        rw [takesValue_iff sound distinct, found]
        simp
      rw [dangling_pass rest notDashes takes] at closed
      rw [behindDashes_pass rest notDashes takes]
      exact ih closed
  | case6 arg rest split notDashes found ih =>
      have takes : ¬spec.takesValue arg = true := by
        rw [takesValue_iff sound distinct, found]
        simp
      have other : arg ≠ word := by
        rintro rfl
        exact setting_namedBy sound distinct named found
      rw [dangling_pass rest notDashes takes] at closed
      rw [behindDashes_pass rest notDashes takes]
      have later := ih closed
      rw [List.count_append, List.count_singleton, if_neg (by simpa using other)] at later
      exact later

/-- An option that is left without a value is positional. -/
theorem splitFrom_dangling (sound : spec.Sound) (distinct : spec.Distinct) {raw : List String}
    {split : SplitArgs} (dangling : spec.Dangling raw) :
    spec.behindDashes raw = [] ∧
      ∃ word, spec.NamedBy word ∧ word ∈ (spec.splitFrom raw split).positional := by
  fun_induction splitFrom spec raw split with
  | case1 split => exact dangling.elim
  | case2 rest split => exact absurd dangling (dangling_dashes rest)
  | case3 arg split notDashes name found =>
      have takes := (takesValue_iff sound distinct).mpr ⟨name, found⟩
      refine ⟨by simp [behindDashes, notDashes], arg, ?_, by simp⟩
      rcases setting_some found with ⟨opt, declared, -, is⟩ | ⟨flag, -, same, -⟩
      · exact ⟨_, mem_entries_option declared, is⟩
      · cases same
  | case4 arg split notDashes name found value later ih =>
      have takes := (takesValue_iff sound distinct).mpr ⟨name, found⟩
      rw [Dangling, if_neg notDashes, if_pos takes] at dangling
      rw [behindDashes, if_neg notDashes, if_pos takes]
      exact ih dangling
  | case5 arg rest split notDashes name found ih =>
      have takes : ¬spec.takesValue arg = true := by
        rw [takesValue_iff sound distinct, found]
        simp
      rw [dangling_pass rest notDashes takes] at dangling
      rw [behindDashes_pass rest notDashes takes]
      exact ih dangling
  | case6 arg rest split notDashes found ih =>
      have takes : ¬spec.takesValue arg = true := by
        rw [takesValue_iff sound distinct, found]
        simp
      rw [dangling_pass rest notDashes takes] at dangling
      rw [behindDashes_pass rest notDashes takes]
      exact ih dangling

/-! ## Validation -/

theorem reject_ok {E : Type} {error : Option E} {value : Unit} :
    reject error = .ok value ↔ error = none := by
  cases error <;> simp [reject]

/-- What is known of arguments that are valid. -/
structure Valid (spec : ArgSpec) (defaults : HashMap String) (args : SplitArgs) : Prop where
  positional : ∀ (i : Nat) (arg : ArgDef), spec.positional[i]? = some arg → arg.required = true →
    (∃ word, args.positional[i]? = some word) ∨ args.named.contains arg.name = true ∨
      defaults.contains arg.name = true
  option : ∀ opt ∈ spec.options, opt.required = true →
    args.named.contains opt.name = true ∨ defaults.contains opt.name = true
  variadic : ∀ variadic, spec.variadic = some variadic → variadic.required = true →
    spec.positional.length < args.positional.length ∨
      args.named.contains variadic.name = true ∨ defaults.contains variadic.name = true
  whole : spec.variadic = none → args.positional.length ≤ spec.positional.length

theorem given_of_required {required first second third : Bool} (must : required = true)
    (given : ¬(required && !(first || (second || third))) = true) :
    first = true ∨ second = true ∨ third = true := by
  subst must
  revert given
  cases first <;> cases second <;> cases third <;> simp

theorem validateArgs_ok {defaults : HashMap String} {args : SplitArgs}
    (valid : spec.validateArgs defaults args = .ok ()) : Valid spec defaults args := by
  unfold validateArgs at valid
  obtain ⟨_, -, valid⟩ := bind_eq_ok.mp valid
  obtain ⟨_, positional, valid⟩ := bind_eq_ok.mp valid
  obtain ⟨_, options, valid⟩ := bind_eq_ok.mp valid
  obtain ⟨_, variadic, valid⟩ := bind_eq_ok.mp valid
  rw [reject_ok, Option.map_eq_none_iff] at positional options variadic valid
  constructor
  · intro i arg stands required
    have present := List.find?_eq_none.mp positional (arg, i)
      (List.mk_mem_zipIdx_iff_getElem?.mpr stands)
    exact (given_of_required required present).imp_left Option.isSome_iff_exists.mp
  · intro opt declared required
    have present := List.find?_eq_none.mp options opt declared
    exact (@given_of_required _ false _ _ required present).resolve_left Bool.false_ne_true
  · intro last is required
    rw [is, Option.filter_some] at variadic
    have present : ¬(last.required && !(decide (spec.positional.length < args.positional.length) ||
        (args.named.contains last.name || defaults.contains last.name))) = true := by
      intro missing
      rw [if_pos missing] at variadic
      cases variadic
    exact (given_of_required required present).imp_left of_decide_eq_true
  · intro none
    rw [none] at valid
    simpa using valid

/-! ## Binding -/

theorem toList_keys_nodup (table : HashMap String) : (table.toList.map Prod.fst).Nodup := by
  rw [Std.ExtTreeMap.map_fst_toList_eq_keys]
  exact Std.ExtTreeMap.nodup_keys

theorem mem_toList_keys {table : HashMap String} {name : String} :
    name ∈ table.toList.map Prod.fst ↔ table.contains name = true := by
  rw [Std.ExtTreeMap.map_fst_toList_eq_keys, Std.ExtTreeMap.mem_keys,
    Std.ExtTreeMap.contains_iff_mem]

section Bindings

variable {defaults : HashMap String} {args : SplitArgs}

theorem parseArgs_named {name value : String} (given : args.named[name]? = some value) :
    (spec.parseArgs defaults args)[name]? = some value :=
  Table.lookup_foldl_entries (toList_keys_nodup args.named) _
    (Std.ExtTreeMap.mem_toList_iff_getElem?_eq_some.mpr given)

/-- A default remains, or is replaced. -/
theorem parseArgs_contains {name : String}
    (given : args.named.contains name = true ∨ defaults.contains name = true) :
    (spec.parseArgs defaults args).contains name = true := by
  refine Table.contains_foldl_entries.mpr (given.imp mem_toList_keys.mpr fun default => ?_)
  have kept : (insertAll ((spec.positional.map ArgDef.name).zip args.positional)
      defaults).contains name = true := Table.contains_foldl_entries.mpr (.inr default)
  split
  · split
    · exact (Table.contains_insert_iff ..).mpr (.inr kept)
    · exact kept
  · exact kept

theorem zip_sublist {α β : Type} (keys : List α) (words : List β) :
    ((keys.zip words).map Prod.fst).Sublist keys := by
  induction keys generalizing words with
  | nil => exact List.Sublist.refl _
  | cons key rest ih =>
      cases words with
      | nil => exact List.nil_sublist _
      | cons word later => exact (ih later).cons_cons key

/-- A positional word is bound to its name. -/
theorem parseArgs_positional (sound : spec.Sound) {i : Nat} {arg : ArgDef} {word : String}
    (stands : spec.positional[i]? = some arg) (given : args.positional[i]? = some word)
    (unnamed : args.named.contains arg.name = false) :
    (spec.parseArgs defaults args)[arg.name]? = some word := by
  have absent : arg.name ∉ args.named.toList.map Prod.fst := by
    rw [mem_toList_keys, unnamed]
    exact Bool.false_ne_true
  have paired : (arg.name, word) ∈ (spec.positional.map ArgDef.name).zip args.positional := by
    refine List.mem_iff_getElem?.mpr ⟨i, ?_⟩
    rw [List.getElem?_zip_eq_some]
    exact ⟨by simp [stands], given⟩
  have bound : (insertAll ((spec.positional.map ArgDef.name).zip args.positional)
      defaults)[arg.name]? = some word :=
    Table.lookup_foldl_entries ((positional_nodup sound).sublist (zip_sublist ..)) _ paired
  refine (Table.lookup_foldl_entries_of_notMem absent).trans ?_
  split
  · rename_i variadic last
    split
    · have other : variadic.name ≠ arg.name :=
        variadic_ne_positional sound last (List.mem_of_getElem? stands)
      rw [Table.lookup_insert, if_neg other]
      exact bound
    · exact bound
  · exact bound

/-- The words behind the positional ones are bound to the variadic argument. -/
theorem parseArgs_variadic {variadic : VariadicDef} (last : spec.variadic = some variadic)
    (more : spec.positional.length < args.positional.length)
    (unnamed : args.named.contains variadic.name = false) :
    (spec.parseArgs defaults args)[variadic.name]? =
      some (joinWords (spec.variadicWords args)) := by
  have absent : variadic.name ∉ args.named.toList.map Prod.fst := by
    rw [mem_toList_keys, unnamed]
    exact Bool.false_ne_true
  refine (Table.lookup_foldl_entries_of_notMem absent).trans ?_
  rw [last]
  dsimp only
  rw [if_pos more, Table.lookup_insert, if_pos rfl]

theorem joinWords_split {words : List String} (some : words ≠ [])
    (plain : ∀ word ∈ words, ' ' ∉ word.toList) :
    (joinWords words).toList.splitOn ' ' = words.map String.toList := by
  rw [joinWords, String.toList_ofList]
  refine List.splitOn_intercalate _ ?_ (by simpa using some)
  simpa using plain

end Bindings

/-! ## Command lines -/

/-- Positional and variadic names are not set by options and flags. -/
theorem named_apart (sound : spec.Sound) (raw : List String) {name : String}
    (apart : (∃ arg ∈ spec.positional, arg.name = name) ∨
      ∃ variadic, spec.variadic = some variadic ∧ variadic.name = name) :
    (spec.splitRawArgs raw).named.contains name = false := by
  refine Bool.eq_false_iff.mpr fun set => ?_
  rcases splitFrom_named set with before | ⟨entry, declared, rfl⟩
  · simp at before
  · rcases apart with ⟨arg, member, same⟩ | ⟨variadic, last, same⟩
    · exact (entry_apart sound declared).1 arg member same.symm
    · exact (entry_apart sound declared).2 variadic last same.symm

/-- Valid words are bound as they are declared if no option is left without a value. -/
theorem binds_of_closed (sound : spec.Sound) (distinct : spec.Distinct)
    {defaults : HashMap String} {raw : List String}
    (valid : Valid spec defaults (spec.splitRawArgs raw)) (closed : ¬spec.Dangling raw) :
    spec.Binds defaults raw where
  required := by
    intro name member
    rw [requiredNames, List.append_assoc, List.mem_append, List.mem_append] at member
    rcases member with positional | option | rest
    · obtain ⟨arg, required, rfl⟩ := List.mem_map.mp positional
      obtain ⟨declared, must⟩ := List.mem_filter.mp required
      obtain ⟨i, stands⟩ := List.mem_iff_getElem?.mp declared
      rcases valid.positional i arg stands must with ⟨word, given⟩ | given
      · have bound := @parseArgs_positional spec defaults _ sound i arg word stands given
          (named_apart sound raw (.inl ⟨arg, declared, rfl⟩))
        rw [Table.contains_eq_isSome, bound]
        rfl
      · exact parseArgs_contains given
    · obtain ⟨opt, required, rfl⟩ := List.mem_map.mp option
      obtain ⟨declared, must⟩ := List.mem_filter.mp required
      exact parseArgs_contains (valid.option opt declared must)
    · obtain ⟨variadic, required, rfl⟩ : ∃ variadic,
          spec.variadic.filter VariadicDef.required = some variadic ∧ variadic.name = name := by
        simpa [Option.map_eq_some_iff] using rest
      obtain ⟨last, must⟩ := Option.filter_eq_some_iff.mp required
      rcases valid.variadic variadic last must with more | given
      · have bound := @parseArgs_variadic spec defaults _ variadic last more
          (named_apart sound raw (.inr ⟨variadic, last, rfl⟩))
        rw [Table.contains_eq_isSome, bound]
        rfl
      · exact parseArgs_contains given
  ordered := by
    obtain ⟨words, same, within⟩ := @splitFrom_sublist spec raw {}
    rw [splitRawArgs, same]
    exact within
  positional := fun i arg word stands given =>
    parseArgs_positional sound stands given
      (named_apart sound raw (.inl ⟨arg, List.mem_of_getElem? stands, rfl⟩))
  variadic := by
    rintro variadic words last rfl some
    have more : spec.positional.length < (spec.splitRawArgs raw).positional.length := by
      by_contra short
      exact some (List.drop_eq_nil_iff.mpr (by omega))
    exact ⟨parseArgs_variadic last more (named_apart sound raw (.inr ⟨variadic, last, rfl⟩)),
      joinWords_split some⟩
  whole := fun none => List.drop_eq_nil_iff.mpr (valid.whole none)
  named := fun name value given => parseArgs_named given
  unnamed := by
    intro word named
    have counted := @splitFrom_count spec sound distinct raw {} word named closed
    rwa [List.count_nil, Nat.zero_add] at counted

/-- An option that is left without a value is bound as a positional word. -/
theorem not_binds_of_dangling (sound : spec.Sound) (distinct : spec.Distinct)
    {defaults : HashMap String} {raw : List String} (dangling : spec.Dangling raw) :
    ¬spec.Binds defaults raw := by
  intro binds
  obtain ⟨behind, word, named, positional⟩ :=
    @splitFrom_dangling spec sound distinct raw {} dangling
  have counted := binds.unnamed word named
  rw [behind, List.count_nil] at counted
  have stands : 0 < (spec.splitRawArgs raw).positional.count word :=
    List.count_pos_iff.mpr positional
  omega

/-! ## Each by its forms -/

theorem setting_empty : spec.setting "" = none := by
  rfl

/-- The form of a flag that can be set names it. -/
theorem setting_of_set_flag {form name : String}
    (set : (spec.splitRawArgs [form]).named[name]? = some "true") :
    form ≠ "--" ∧ (spec.setting form).map Setting.name = some name := by
  by_cases dashes : form = "--"
  · subst dashes
    simp [splitRawArgs, splitFrom] at set
  refine ⟨dashes, ?_⟩
  rcases found : spec.setting form with _ | named | named
  · simp [splitRawArgs, splitFrom, dashes, found] at set
  · simp [splitRawArgs, splitFrom, dashes, found] at set
  · rw [splitRawArgs, splitFrom, if_neg dashes, found] at set
    simp only [splitFrom, Table.lookup_insert] at set
    split at set
    · rename_i same
      exact congrArg some same
    · simp at set

/-- The form of an option that can be set names it. -/
theorem setting_of_set_option {form name : String}
    (set : (spec.splitRawArgs [form, ""]).named[name]? = some "") :
    form ≠ "--" ∧ (spec.setting form).map Setting.name = some name := by
  by_cases dashes : form = "--"
  · subst dashes
    simp [splitRawArgs, splitFrom] at set
  refine ⟨dashes, ?_⟩
  rcases found : spec.setting form with _ | named | named
  · simp [splitRawArgs, splitFrom, dashes, found, setting_empty] at set
  · rw [splitRawArgs, splitFrom, if_neg dashes, found] at set
    simp only [splitFrom, Table.lookup_insert] at set
    split at set
    · rename_i same
      exact congrArg some same
    · simp at set
  · rw [splitRawArgs, splitFrom, if_neg dashes, found] at set
    have empty : "" ≠ "--" := by decide
    simp only [splitFrom, if_neg empty, setting_empty, Table.lookup_insert] at set
    split at set
    · rename_i same
      exact congrArg some same
    · simp at set

theorem setting_of_settable (settable : spec.Settable) {entry : String × Option Char}
    (declared : entry ∈ spec.entries) {form : String} (is : form ∈ forms entry.1 entry.2) :
    form ≠ "--" ∧ (spec.setting form).map Setting.name = some entry.1 := by
  rcases List.mem_append.mp declared with member | member
  · obtain ⟨opt, listed, rfl⟩ := List.mem_map.mp member
    exact setting_of_set_option (settable.option opt listed form is "")
  · obtain ⟨flag, listed, rfl⟩ := List.mem_map.mp member
    exact setting_of_set_flag (settable.flag flag listed form is)

/-- A letter of more than one byte is never found. -/
theorem setting_wide {c : Char} (other : c ≠ '-') (wide : c.utf8Size ≠ 1) :
    spec.setting (shortForm c) = none := by
  have short : Pattern.literal "--".toList (shortForm c).toList = none := by
    rw [shortForm, String.toList_ofList, Pattern.literal]
    simp [Ne.symm other]
  have dash : '-'.utf8Size = 1 := by decide
  have size : 1 + c.utf8Size ≠ 2 := by omega
  rw [setting, short]
  simp [shortForm, dash, size]

theorem distinct_of_settable (sound : spec.Sound) (settable : spec.Settable) : spec.Distinct where
  long := by
    rintro ⟨name, short⟩ declared rfl
    exact (setting_of_settable settable declared List.mem_cons_self).1 rfl
  byte := by
    intro entry declared c has
    by_contra wide
    have set := (setting_of_settable settable declared (mem_forms.mpr (.inr ⟨c, has, rfl⟩))).2
    rw [setting_wide (short_ne_dash sound declared has) wide] at set
    cases set
  letter := by
    intro first declared second also c has has'
    have one := (setting_of_settable settable declared (mem_forms.mpr (.inr ⟨c, has, rfl⟩))).2
    have two := (setting_of_settable settable also (mem_forms.mpr (.inr ⟨c, has', rfl⟩))).2
    exact Option.some.inj (one.symm.trans two)

theorem settable_of_distinct (sound : spec.Sound) (distinct : spec.Distinct) :
    spec.Settable where
  flag := by
    intro flag declared form is
    have notDashes := form_ne_dashes sound distinct (mem_entries_flag declared) is
    have found := setting_flag sound distinct declared is
    simp [splitRawArgs, splitFrom, notDashes, found]
  option := by
    intro opt declared form is value
    have notDashes := form_ne_dashes sound distinct (mem_entries_option declared) is
    have found := setting_option sound distinct declared is
    simp [splitRawArgs, splitFrom, notDashes, found]

/-- The words of every command line are bound as they are declared, and every option and flag can be
set, if and only if no option is left without a value in words that are valid, and the forms of the
options and flags are distinct. -/
theorem words_bound_iff {text : String} {spec : ArgSpec} (parsed : parseArgSpec text = .ok spec)
    (defaults : HashMap String) (raw : List String) :
    ((spec.validateArgs defaults (spec.splitRawArgs raw) = .ok () → spec.Binds defaults raw) ∧
      spec.Settable) ↔
    (spec.validateArgs defaults (spec.splitRawArgs raw) = .ok () → ¬spec.Dangling raw) ∧
      spec.Distinct := by
  have sound := parseArgSpec_sound parsed
  constructor
  · rintro ⟨binds, settable⟩
    have distinct := distinct_of_settable sound settable
    exact ⟨fun valid dangling => not_binds_of_dangling sound distinct dangling (binds valid),
      distinct⟩
  · rintro ⟨closed, distinct⟩
    exact ⟨fun valid => binds_of_closed sound distinct (validateArgs_ok valid) (closed valid),
      settable_of_distinct sound distinct⟩

/-! ## An option without its value -/

def boardText : String := "[name] [--new <board>]"

def boardSpec : ArgSpec := { positional := [⟨"name", false⟩], options := [⟨"new", none, false⟩] }

theorem boardText_parsed : parseArgSpec boardText = .ok boardSpec := by rfl

theorem boardSpec_distinct : boardSpec.Distinct := by
  refine ⟨?_, ?_, ?_⟩ <;> simp [boardSpec, entries]

/-- The option stands in front of the positional word. -/
theorem board_new_bound :
    (boardSpec.validateArgs ∅ (boardSpec.splitRawArgs ["--new", "tasks", "tasks"]) = .ok () →
      boardSpec.Binds ∅ ["--new", "tasks", "tasks"]) ∧ boardSpec.Settable :=
  (words_bound_iff boardText_parsed ∅ ["--new", "tasks", "tasks"]).mpr
    ⟨fun _ => by simp [Dangling, takesValue, boardSpec, forms, longForm], boardSpec_distinct⟩

/-- The option at the end is bound as the name of the board. -/
theorem board_new_dangling :
    ¬∀ (text : String) (spec : ArgSpec) (defaults : HashMap String) (raw : List String),
      parseArgSpec text = .ok spec →
        (spec.validateArgs defaults (spec.splitRawArgs raw) = .ok () → spec.Binds defaults raw) ∧
          spec.Settable := by
  intro bound
  obtain ⟨binds, -⟩ := bound boardText boardSpec ∅ ["--new"] boardText_parsed
  have named : boardSpec.NamedBy "--new" := ⟨("new", none), by decide, by decide⟩
  have counted := (binds (by rfl)).unnamed "--new" named
  revert counted
  decide

end ArgSpec

end OddJobs
