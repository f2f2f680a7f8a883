import OddJobs.Shell.Quoting

/-!
# When quotes are kept

The fields of the expander are those of the source if and only if its guess about the quotes
of the word does no harm.
-/

namespace OddJobs.Shell

open Library

/-! ## The text of fields -/

def joins (c : Char) : Bool := !defaultIfs.contains c

theorem flatten_fieldsOfMarks (marks : List Mark) :
    (fieldsOfMarks marks).flatten = marks.filterMap Mark.character := by
  rw [fieldsOfMarks, ← List.filterMap_flatten, flatten_groups, List.filterMap_filter]
  refine List.filterMap_congr fun mark _ => ?_
  cases mark <;> rfl

def letters (marks : List Mark) : List Char := (marks.filterMap Mark.character).map (·.1)

theorem letters_flatMap {A : Type} (marks : A → List Mark) (items : List A) :
    letters (items.flatMap marks) = items.flatMap fun item => letters (marks item) := by
  rw [letters, List.filterMap_flatMap, List.map_flatMap]
  rfl

theorem letters_quotedMarks (text : List Char) : letters (quotedMarks text) = text := by
  rw [letters, quotedMarks, List.filterMap_cons_none rfl, List.filterMap_map, List.map_filterMap]
  exact List.filterMap_some

theorem letters_splitMarks (text : List Char) : letters (splitMarks text) = text.filter joins := by
  induction text with
  | nil => rfl
  | cons c text ih =>
      rw [splitMarks, List.map_cons, List.filter_cons]
      by_cases separates : defaultIfs.contains c = true
      · rw [if_pos separates, if_neg (by rw [joins, separates]; decide), letters,
          List.filterMap_cons_none rfl]
        exact ih
      · have one : Mark.character (.char c false) = some (c, false) := rfl
        rw [if_neg separates, if_pos (by rw [joins, Bool.eq_false_iff.mpr separates]; rfl), letters,
          List.filterMap_cons_some one]
        exact congrArg (c :: ·) ih

theorem letters_present (found : List (Char × Bool)) :
    letters (.present :: found.map Mark.of) = found.map (·.1) := by
  have same : Mark.character ∘ Mark.of = some := rfl
  rw [letters, List.filterMap_cons_none rfl, List.filterMap_map, same, List.filterMap_some]

def pieceText (piece : Piece) : List Char :=
  if piece.2.splittable ∧ piece.1.1 = false then piece.2.text.filter joins else piece.2.text

theorem letters_pieceMarks {piece : Piece} (proper : Proper piece) :
    letters (pieceMarks piece) = pieceText piece := by
  rw [pieceMarks, pieceText]
  by_cases split : piece.2.splittable = true
  · rw [if_pos split]
    by_cases quoted : piece.1.1 = true
    · rw [if_pos quoted, letters_quotedMarks, if_neg]
      rintro ⟨-, outside⟩
      exact Bool.false_ne_true (outside.symm.trans quoted)
    · rw [if_neg quoted, letters_splitMarks, if_pos ⟨split, Bool.eq_false_iff.mpr quoted⟩]
  · rw [if_neg split, letters_present, List.map_fst_zip, if_neg fun both => split both.1]
    exact proper.covers (Bool.eq_false_iff.mpr split)

def byteChars (text : List Char) : List Char := (bytes text).map fun byte => Char.ofNat byte.toNat

def expanderText (field : ExpandedField) : List Char :=
  if field.splittable then field.text.filter joins else byteChars field.text

theorem literalBytes_text (field : ExpandedField) :
    (literalBytes field).map (·.1) = byteChars field.text := by
  rw [literalBytes, List.map_map, byteChars]
  have same : (fun letter : Char × Bool => letter.1) ∘ (fun indexed : UInt8 × Nat =>
      (Char.ofNat indexed.1.toNat, field.globEligible.getD indexed.2 false)) =
      (fun byte : UInt8 => Char.ofNat byte.toNat) ∘ fun indexed : UInt8 × Nat => indexed.1 := rfl
  change (List.map _ _) = _
  rw [same, ← List.map_map, List.zipIdx_map_fst]

theorem letters_expanderMarks (field : ExpandedField) :
    letters (expanderMarks field) = expanderText field := by
  rw [expanderMarks, expanderText]
  by_cases split : field.splittable = true
  · rw [if_pos split, if_pos split, letters_splitMarks]
  · rw [if_neg split, if_neg split, letters_present, literalBytes_text]

/-! ## Bytes for characters -/

theorem byteChars_cons (c : Char) (text : List Char) :
    byteChars (c :: text) = byteChars [c] ++ byteChars text := by
  rw [byteChars, byteChars, byteChars, ← List.map_append, bytes, bytes, bytes, ← List.flatMap_append]
  rfl

theorem byteChars_ascii {text : List Char} (ascii : ∀ c ∈ text, isAscii c = true) :
    byteChars text = text := by
  induction text with
  | nil => rfl
  | cons c text ih =>
      obtain ⟨single, same⟩ := utf8_ascii (ascii c List.mem_cons_self)
      rw [byteChars_cons, ih fun other member => ascii other (List.mem_cons_of_mem c member),
        byteChars, bytes, List.flatMap_singleton, single]
      exact congrArg (· :: text) same

theorem joins_of_large {c : Char} (large : 128 ≤ c.toNat) : joins c = true := by
  rw [joins, Bool.not_eq_true', ← Bool.not_eq_true, List.contains_iff_mem]
  intro member
  simp only [defaultIfs, List.mem_cons, List.not_mem_nil, or_false] at member
  rcases member with rfl | rfl | rfl <;> exact absurd large (by decide)

/-- Bytes are more than characters where one is not ASCII. -/
theorem length_byteChars (text : List Char) :
    (text.filter joins).length ≤ ((byteChars text).filter joins).length ∧
      (((byteChars text).filter joins).length = (text.filter joins).length →
        ∀ c ∈ text, isAscii c = true) := by
  induction text with
  | nil => exact ⟨Nat.le_refl 0, fun _ _ none => absurd none List.not_mem_nil⟩
  | cons c text ih =>
      rw [byteChars_cons, List.filter_append, List.length_append, ← List.singleton_append,
        List.filter_append, List.length_append]
      by_cases ascii : isAscii c = true
      · have same : byteChars [c] = [c] :=
          byteChars_ascii fun other member => (List.mem_singleton.mp member) ▸ ascii
        rw [same]
        refine ⟨Nat.add_le_add_left ih.1 _, fun equal other member => ?_⟩
        rcases List.mem_cons.mp member with rfl | later
        · exact ascii
        · exact ih.2 (Nat.add_left_cancel equal) other later
      · obtain ⟨several, large⟩ := utf8_other (Bool.eq_false_iff.mpr ascii)
        have all : ∀ other ∈ byteChars [c], joins other = true := by
          intro other member
          obtain ⟨byte, inside, rfl⟩ := List.mem_map.mp member
          rw [bytes, List.flatMap_singleton] at inside
          exact joins_of_large ((toNat_ofByte byte).symm ▸ large byte inside)
        have counted : 2 ≤ ((byteChars [c]).filter joins).length := by
          rw [List.filter_eq_self.mpr all, byteChars, List.length_map, bytes,
            List.flatMap_singleton]
          exact several
        have one : ([c].filter joins).length ≤ 1 := List.length_filter_le _ _
        have more := ih.1
        exact ⟨by omega, fun equal => by omega⟩

/-! ## Counting -/

/-- Where no count of one side is larger and the sums agree, all counts agree. -/
theorem eq_of_sum_eq {A : Type} {less more : A → Nat} {items : List A}
    (le : ∀ item ∈ items, less item ≤ more item)
    (same : (items.map less).sum = (items.map more).sum) :
    ∀ item ∈ items, less item = more item := by
  have below {items : List A} (le : ∀ item ∈ items, less item ≤ more item) :
      (items.map less).sum ≤ (items.map more).sum := by
    induction items with
    | nil => exact Nat.le_refl 0
    | cons item items ih =>
        rw [List.map_cons, List.map_cons, List.sum_cons, List.sum_cons]
        exact Nat.add_le_add (le item List.mem_cons_self)
          (ih fun other member => le other (List.mem_cons_of_mem item member))
  induction items with
  | nil => exact fun _ none => absurd none List.not_mem_nil
  | cons item items ih =>
      rw [List.map_cons, List.map_cons, List.sum_cons, List.sum_cons] at same
      have first := le item List.mem_cons_self
      have rest := @below items fun other member => le other (List.mem_cons_of_mem item member)
      intro other member
      rcases List.mem_cons.mp member with rfl | later
      · omega
      · exact ih (fun other member => le other (List.mem_cons_of_mem item member)) (by omega)
          other later

theorem length_flatMap_filter {A : Type} (test : Char → Bool) (text : A → List Char)
    (items : List A) : ((items.flatMap text).filter test).length =
      (items.map fun item => ((text item).filter test).length).sum := by
  rw [List.filter_flatMap, List.length_flatMap]

theorem filter_joins_length {text : List Char}
    (same : (text.filter joins).length = text.length) : ∀ c ∈ text, joins c = true :=
  List.length_filter_eq_length_iff.mp same

/-! ## Where nothing goes wrong -/

/-- A literal of the same quotes stands before every expansion in quotes. -/
def Anchored (anchored : Bool) : List SourcePart → Prop
  | [] => True
  | part :: rest => (part.1 = true → isLiteral part.2 = false → anchored = true) ∧
      Anchored (part.1 || isLiteral part.2) rest

/-- The pieces of a word that is split are read as the source has them. -/
structure Kept (pieces : List Piece) : Prop where
  ascii : ∀ piece ∈ pieces, piece.2.splittable = false → ∀ c ∈ piece.2.text, isAscii c = true
  joined : ∀ piece ∈ pieces, piece.1.1 = true → piece.2.splittable = true →
    ∀ c ∈ piece.2.text, joins c = true
  active : ∀ field ∈ fieldsOfMarks (pieces.flatMap pieceMarks),
    (∃ letter ∈ field, letter.2 = true ∧ isPatternChar letter.1 = true) →
      ∀ letter ∈ field, isPatternChar letter.1 = true → letter.2 = true

/-- Groupings with the same characters, whose open groups are both empty or both not. -/
structure Alike (seen standing : Grouping Mark) : Prop where
  closed : seen.closed.map (·.filterMap Mark.character) =
    standing.closed.map (·.filterMap Mark.character)
  current : seen.current.filterMap Mark.character = standing.current.filterMap Mark.character
  empty : seen.current = [] ↔ standing.current = []

namespace Alike

variable {seen standing : Grouping Mark}

theorem close (alike : Alike seen standing) :
    seen.close.map (·.filterMap Mark.character) =
      standing.close.map (·.filterMap Mark.character) := by
  rw [Grouping.close, Grouping.close]
  by_cases opened : standing.current = []
  · rw [if_pos (List.isEmpty_iff.mpr (alike.empty.mpr opened)),
      if_pos (List.isEmpty_iff.mpr opened)]
    exact alike.closed
  · rw [if_neg fun none => opened (alike.empty.mp (List.isEmpty_iff.mp none)),
      if_neg fun none => opened (List.isEmpty_iff.mp none)]
    rw [List.map_append, List.map_append, alike.closed, List.map_singleton, List.map_singleton,
      alike.current]

theorem step (alike : Alike seen standing) (mark : Mark) :
    Alike (seen.step Mark.isBlank mark) (standing.step Mark.isBlank mark) := by
  rw [Grouping.step, Grouping.step]
  split
  · exact ⟨alike.close, rfl, Iff.rfl⟩
  · refine ⟨alike.closed, ?_, ?_⟩
    · change List.filterMap _ (_ ++ [mark]) = List.filterMap _ (_ ++ [mark])
      rw [List.filterMap_append, List.filterMap_append, alike.current]
    · exact iff_of_false (List.append_ne_nil_of_right_ne_nil _ (List.cons_ne_nil _ _))
        (List.append_ne_nil_of_right_ne_nil _ (List.cons_ne_nil _ _))

theorem foldl (alike : Alike seen standing) (marks : List Mark) :
    Alike (marks.foldl (Grouping.step Mark.isBlank) seen)
      (marks.foldl (Grouping.step Mark.isBlank) standing) := by
  induction marks generalizing seen standing with
  | nil => exact alike
  | cons mark marks ih => exact ih (alike.step mark)

/-- In a group that is open anyway it tells nothing that there is one. -/
theorem present (alike : Alike seen standing) (opened : standing.current ≠ []) :
    Alike seen (standing.step Mark.isBlank .present) where
  closed := alike.closed
  current := by
    change _ = List.filterMap _ (_ ++ [Mark.present])
    rw [List.filterMap_append, alike.current]
    exact (List.append_nil _).symm
  empty := iff_of_false (opened ∘ alike.empty.mp)
    (List.append_ne_nil_of_right_ne_nil _ (List.cons_ne_nil _ _))

end Alike

theorem literalBytes_ascii {field : ExpandedField} (ascii : ∀ c ∈ field.text, isAscii c = true)
    (covers : field.text.length ≤ field.globEligible.length) :
    literalBytes field = field.text.zip field.globEligible := by
  have single {text : List Char} (ascii : ∀ c ∈ text, isAscii c = true) :
      bytes text = text.map fun c => UInt8.ofNat c.toNat := by
    induction text with
    | nil => rfl
    | cons c text ih =>
        rw [bytes_cons, (utf8_ascii (ascii c List.mem_cons_self)).1,
          ih fun other member => ascii other (List.mem_cons_of_mem c member)]
        rfl
  rw [literalBytes, single ascii]
  refine List.ext_getElem ?_ fun index below _ => ?_
  · rw [List.length_map, List.length_zipIdx, List.length_map, List.length_zip,
      Nat.min_eq_left covers]
  · rw [List.length_map, List.length_zipIdx, List.length_map] at below
    rw [List.getElem_map, List.getElem_zipIdx, List.getElem_map, List.getElem_zip]
    have same := (utf8_ascii (ascii _ (List.getElem_mem below))).2
    have inside : index < field.globEligible.length := Nat.lt_of_lt_of_le below covers
    dsimp only
    rw [same, Nat.zero_add, List.getD_eq_getElem?_getD, List.getElem?_eq_getElem inside,
      Option.getD_some]

theorem splitMarks_joins {text : List Char} (joined : ∀ c ∈ text, joins c = true) :
    splitMarks text = text.map (.char · false) := by
  refine List.map_congr_left fun c member => ?_
  have inside := joined c member
  rw [joins, Bool.not_eq_true'] at inside
  rw [inside]
  rfl

/-- The marks of text in the source have no blanks. -/
theorem pieceMarks_open {piece : Piece} (text : (piece.1.1 || isLiteral piece.1.2) = true)
    (proper : Proper piece) : ∀ mark ∈ pieceMarks piece, mark.isBlank = false := by
  rw [pieceMarks]
  intro mark member
  split at member
  · rename_i split
    have expansion := proper.splittable
    rw [split, Eq.comm, Bool.not_eq_true'] at expansion
    rw [expansion, Bool.or_false] at text
    rw [if_pos text, quotedMarks] at member
    rcases List.mem_cons.mp member with rfl | letter
    · rfl
    · obtain ⟨c, -, rfl⟩ := List.mem_map.mp letter
      rfl
  · rcases List.mem_cons.mp member with rfl | letter
    · rfl
    · obtain ⟨found, -, rfl⟩ := List.mem_map.mp letter
      rfl

theorem pieceMarks_ne_nil {piece : Piece} (text : (piece.1.1 || isLiteral piece.1.2) = true)
    (proper : Proper piece) : pieceMarks piece ≠ [] := by
  rw [pieceMarks]
  split
  · rename_i split
    have expansion := proper.splittable
    rw [split, Eq.comm, Bool.not_eq_true'] at expansion
    rw [expansion, Bool.or_false] at text
    rw [if_pos text]
    exact List.cons_ne_nil _ _
  · exact List.cons_ne_nil _ _

namespace Alike

variable {seen standing : Grouping Mark} {anchored : Bool}

theorem piece {piece : Piece} (alike : Alike seen standing) (proper : Proper piece)
    (opened : anchored = true → standing.current ≠ [])
    (behind : piece.1.1 = true → isLiteral piece.1.2 = false → anchored = true)
    (ascii : piece.2.splittable = false → ∀ c ∈ piece.2.text, isAscii c = true)
    (joined : piece.1.1 = true → piece.2.splittable = true → ∀ c ∈ piece.2.text, joins c = true) :
    Alike ((expanderMarks piece.2).foldl (Grouping.step Mark.isBlank) seen)
      ((pieceMarks piece).foldl (Grouping.step Mark.isBlank) standing) := by
  rw [expanderMarks, pieceMarks]
  by_cases split : piece.2.splittable = true
  · rw [if_pos split, if_pos split]
    have expansion := proper.splittable
    rw [split, Eq.comm, Bool.not_eq_true'] at expansion
    by_cases quoted : piece.1.1 = true
    · rw [if_pos quoted, splitMarks_joins (joined quoted split), quotedMarks, List.foldl_cons]
      exact (alike.present (opened (behind quoted expansion))).foldl _
    · rw [if_neg quoted]
      exact alike.foldl _
  · have literal := Bool.eq_false_iff.mpr split
    rw [if_neg split, if_neg split, literalBytes_ascii (ascii literal) (proper.covers literal)]
    exact alike.foldl _

theorem pieces {pieces : List Piece} (alike : Alike seen standing)
    (proper : ∀ piece ∈ pieces, Proper piece)
    (opened : anchored = true → standing.current ≠ [])
    (behind : Anchored anchored (pieces.map (·.1)))
    (ascii : ∀ piece ∈ pieces, piece.2.splittable = false → ∀ c ∈ piece.2.text, isAscii c = true)
    (joined : ∀ piece ∈ pieces, piece.1.1 = true → piece.2.splittable = true →
      ∀ c ∈ piece.2.text, joins c = true) :
    Alike ((pieces.flatMap (expanderMarks ·.2)).foldl (Grouping.step Mark.isBlank) seen)
      ((pieces.flatMap pieceMarks).foldl (Grouping.step Mark.isBlank) standing) := by
  induction pieces generalizing seen standing anchored with
  | nil => exact alike
  | cons piece pieces ih =>
      have first := proper piece List.mem_cons_self
      rw [List.flatMap_cons, List.flatMap_cons, List.foldl_append, List.foldl_append]
      refine @ih _ _ (piece.1.1 || isLiteral piece.1.2)
        (alike.piece first opened behind.1 (ascii piece List.mem_cons_self)
          (joined piece List.mem_cons_self))
        (fun other member => proper other (List.mem_cons_of_mem piece member)) ?_ behind.2
        (fun other member => ascii other (List.mem_cons_of_mem piece member))
        (fun other member => joined other (List.mem_cons_of_mem piece member))
      intro text
      rw [Grouping.foldl_open standing (pieceMarks_open text first)]
      exact List.append_ne_nil_of_right_ne_nil _ (pieceMarks_ne_nil text first)

end Alike

/-- The fields that the expander makes are those of the source. -/
theorem fieldsOfMarks_alike {pieces : List Piece} (proper : ∀ piece ∈ pieces, Proper piece)
    (behind : Anchored false (pieces.map (·.1)))
    (ascii : ∀ piece ∈ pieces, piece.2.splittable = false → ∀ c ∈ piece.2.text, isAscii c = true)
    (joined : ∀ piece ∈ pieces, piece.1.1 = true → piece.2.splittable = true →
      ∀ c ∈ piece.2.text, joins c = true) :
    fieldsOfMarks (pieces.flatMap (expanderMarks ·.2)) =
      fieldsOfMarks (pieces.flatMap pieceMarks) := by
  have start : Alike ⟨[], []⟩ ⟨[], []⟩ := ⟨rfl, rfl, Iff.rfl⟩
  rw [fieldsOfMarks, fieldsOfMarks, groups_eq_foldl, groups_eq_foldl]
  exact (start.pieces proper (fun never => absurd never Bool.false_ne_true) behind ascii
    joined).close

/-! ## What the fields tell -/

def actsInPattern (field : List (Char × Bool)) : Bool :=
  field.any fun letter => letter.2 && isPatternChar letter.1

theorem actsInPattern_iff {field : List (Char × Bool)} : actsInPattern field = true ↔
    ∃ letter ∈ field, letter.2 = true ∧ isPatternChar letter.1 = true := by
  rw [actsInPattern, List.any_eq_true]
  constructor
  · rintro ⟨letter, member, both⟩
    exact ⟨letter, member, (Bool.and_eq_true _ _).mp both⟩
  · rintro ⟨letter, member, both⟩
    exact ⟨letter, member, (Bool.and_eq_true _ _).mpr both⟩

section Paths

variable {ε : Type}

theorem expandField_of (pathnames : Pathnames ε) (field : List (Char × Bool)) :
    expandField pathnames (.of field) =
      if actsInPattern field then
        pathnames (field.map fun letter => (letter.1, isPatternChar letter.1))
      else .ok [field.map (·.1)] := by
  rw [expandField, GlobEligibility.hasGlobPattern_of, GlobEligibility.of, List.map_map]
  rfl

/-- Where each field has one path, the paths are those of the fields in order. -/
theorem mapM_single {compute : List (Char × Bool) → Except ε (List (List Char))}
    {path : List (Char × Bool) → List Char} (fields : List (List (Char × Bool)))
    (single : ∀ field, compute field = .ok [path field]) :
    (fields.mapM compute).map List.flatten = .ok (fields.map path) := by
  have all : fields.mapM compute = .ok (fields.map fun field => [path field]) := by
    rw [mapM_congr fun field _ => single field]
    exact List.mapM_pure
  rw [all]
  refine congrArg Except.ok ?_
  rw [← List.flatMap_def]
  exact (List.map_eq_flatMap ..).symm

def spelled : Pathnames ε := fun marks => .ok [marks.map (·.1)]

def acting : Pathnames ε := fun marks => .ok [(marks.filter (·.2)).map (·.1)]

def seenFields (pieces : List Piece) : List (List (Char × Bool)) :=
  fieldsOfMarks (pieces.flatMap (expanderMarks ·.2))

def standingFields (pieces : List Piece) : List (List (Char × Bool)) :=
  fieldsOfMarks (pieces.flatMap pieceMarks)

def SamePaths (pathnames : Pathnames ε) (pieces : List Piece) : Prop :=
  ((seenFields pieces).mapM fun field => expandField pathnames (.of field)).map List.flatten =
    ((standingFields pieces).mapM (pathsOfField pathnames)).map List.flatten

variable {pieces : List Piece}

theorem SamePaths.texts (same : SamePaths (spelled : Pathnames ε) pieces)
    (proper : ∀ piece ∈ pieces, Proper piece) :
    pieces.flatMap (expanderText ·.2) = pieces.flatMap pieceText := by
  have seen (field : List (Char × Bool)) :
      expandField (spelled : Pathnames ε) (.of field) = .ok [field.map (·.1)] := by
    rw [expandField_of, spelled, List.map_map]
    split <;> rfl
  have standing (field : List (Char × Bool)) :
      pathsOfField (spelled : Pathnames ε) field = .ok [field.map (·.1)] := by
    rw [pathsOfField, spelled, List.map_map]
    split <;> rfl
  rw [SamePaths, mapM_single _ seen, mapM_single _ standing] at same
  have texts := congrArg List.flatten (Except.ok.inj same)
  rw [← List.map_flatten, ← List.map_flatten, seenFields, standingFields, flatten_fieldsOfMarks,
    flatten_fieldsOfMarks] at texts
  change letters _ = letters _ at texts
  rw [letters_flatMap, letters_flatMap] at texts
  calc pieces.flatMap (expanderText ·.2)
      = pieces.flatMap fun piece => letters (expanderMarks piece.2) :=
        List.flatMap_congr fun piece _ => (letters_expanderMarks piece.2).symm
    _ = pieces.flatMap fun piece => letters (pieceMarks piece) := texts
    _ = pieces.flatMap pieceText :=
        List.flatMap_congr fun piece member => letters_pieceMarks (proper piece member)

theorem filter_joins_twice (text : List Char) :
    (text.filter joins).filter joins = text.filter joins := by
  rw [List.filter_filter]
  exact congrArg (List.filter · text) (funext fun c => Bool.and_self _)

/-- Counted without separators, the texts agree only where the literals are ASCII. -/
theorem ascii_of_texts
    (texts : pieces.flatMap (expanderText ·.2) = pieces.flatMap pieceText) :
    ∀ piece ∈ pieces, piece.2.splittable = false → ∀ c ∈ piece.2.text, isAscii c = true := by
  have counts := congrArg (fun text => (text.filter joins).length) texts
  rw [length_flatMap_filter, length_flatMap_filter] at counts
  have literal {piece : Piece} (literal : piece.2.splittable = false) :
      pieceText piece = piece.2.text ∧ expanderText piece.2 = byteChars piece.2.text := by
    have unsplit : ¬piece.2.splittable = true := by
      rw [literal]
      exact Bool.false_ne_true
    exact ⟨if_neg fun both => unsplit both.1, if_neg unsplit⟩
  have less : ∀ piece ∈ pieces, ((pieceText piece).filter joins).length ≤
      ((expanderText piece.2).filter joins).length := by
    intro piece _
    by_cases split : piece.2.splittable = true
    · have seen : expanderText piece.2 = piece.2.text.filter joins := if_pos split
      rw [seen, filter_joins_twice, pieceText]
      split
      · exact Nat.le_of_eq (congrArg List.length (filter_joins_twice piece.2.text))
      · exact Nat.le_refl _
    · have both := literal (Bool.eq_false_iff.mpr split)
      rw [both.1, both.2]
      exact (length_byteChars piece.2.text).1
  intro piece member unsplit
  have equal := eq_of_sum_eq less counts.symm piece member
  rw [(literal unsplit).1, (literal unsplit).2] at equal
  exact (length_byteChars piece.2.text).2 equal.symm

/-- Where the literals are ASCII, the texts agree only where no quoted expansion is split. -/
theorem joined_of_texts
    (texts : pieces.flatMap (expanderText ·.2) = pieces.flatMap pieceText)
    (ascii : ∀ piece ∈ pieces, piece.2.splittable = false → ∀ c ∈ piece.2.text, isAscii c = true) :
    ∀ piece ∈ pieces, piece.1.1 = true → piece.2.splittable = true →
      ∀ c ∈ piece.2.text, joins c = true := by
  have counts := congrArg List.length texts
  rw [List.length_flatMap, List.length_flatMap] at counts
  have less : ∀ piece ∈ pieces, (expanderText piece.2).length ≤ (pieceText piece).length := by
    intro piece member
    rw [expanderText, pieceText]
    by_cases split : piece.2.splittable = true
    · rw [if_pos split]
      split
      · exact Nat.le_refl _
      · exact List.length_filter_le _ _
    · have same := byteChars_ascii (ascii piece member (Bool.eq_false_iff.mpr split))
      rw [if_neg split, if_neg fun both => split both.1]
      exact Nat.le_of_eq (congrArg List.length same)
  intro piece member quoted split
  have equal := eq_of_sum_eq less counts piece member
  have inside : ¬(piece.2.splittable = true ∧ piece.1.1 = false) := fun both =>
    Bool.false_ne_true (both.2.symm.trans quoted)
  rw [expanderText, pieceText, if_pos split, if_neg inside] at equal
  exact filter_joins_length equal

/-- Where the fields are the same, they act alike only where no pattern is half quoted. -/
theorem active_of_fields (same : SamePaths (acting : Pathnames ε) pieces)
    (fields : seenFields pieces = standingFields pieces) :
    ∀ field ∈ standingFields pieces,
      (∃ letter ∈ field, letter.2 = true ∧ isPatternChar letter.1 = true) →
        ∀ letter ∈ field, isPatternChar letter.1 = true → letter.2 = true := by
  let seenPath (field : List (Char × Bool)) : List Char :=
    if actsInPattern field then (field.filter fun letter => isPatternChar letter.1).map (·.1)
    else field.map (·.1)
  let standingPath (field : List (Char × Bool)) : List Char :=
    if actsInPattern field then
      (field.filter fun letter => letter.2 && isPatternChar letter.1).map (·.1)
    else field.map (·.1)
  have seen (field : List (Char × Bool)) :
      expandField (acting : Pathnames ε) (.of field) = .ok [seenPath field] := by
    rw [expandField_of, acting, List.filter_map, List.map_map]
    dsimp only [seenPath]
    split <;> rfl
  have standing (field : List (Char × Bool)) :
      pathsOfField (acting : Pathnames ε) field = .ok [standingPath field] := by
    rw [pathsOfField, acting, List.filter_map, List.map_map]
    change (if actsInPattern field then _ else _) = Except.ok [if actsInPattern field then _ else _]
    split <;> rfl
  rw [SamePaths, mapM_single _ seen, mapM_single _ standing, fields] at same
  have each := List.map_inj_left.mp (Except.ok.inj same)
  intro field member acts letter inside pattern
  have equal := congrArg List.length (each field member)
  dsimp only [seenPath, standingPath] at equal
  rw [if_pos (actsInPattern_iff.mpr acts), if_pos (actsInPattern_iff.mpr acts), List.length_map,
    List.length_map, ← List.filter_filter] at equal
  exact List.length_filter_eq_length_iff.mp equal.symm letter
    (List.mem_filter.mpr ⟨inside, pattern⟩)

/-- The paths of a word that is split are those of its source where nothing goes wrong. -/
theorem samePaths_iff (proper : ∀ piece ∈ pieces, Proper piece)
    (behind : Anchored false (pieces.map (·.1))) :
    (∀ pathnames : Pathnames ε, SamePaths pathnames pieces) ↔ Kept pieces := by
  constructor
  · intro same
    have texts := (same spelled).texts proper
    have ascii := ascii_of_texts texts
    have joined := joined_of_texts texts ascii
    exact ⟨ascii, joined,
      active_of_fields (same acting) (fieldsOfMarks_alike proper behind ascii joined)⟩
  · intro kept pathnames
    have fields : seenFields pieces = standingFields pieces :=
      fieldsOfMarks_alike proper behind kept.ascii kept.joined
    rw [SamePaths, fields]
    refine congrArg (Except.map List.flatten) (mapM_congr fun field member => ?_)
    rw [expandField_of]
    change _ = if actsInPattern field then _ else _
    by_cases acts : actsInPattern field = true
    · rw [if_pos acts, if_pos acts]
      refine congrArg pathnames (List.map_congr_left fun letter inside => ?_)
      by_cases pattern : isPatternChar letter.1 = true
      · rw [kept.active field member (actsInPattern_iff.mp acts) letter inside pattern,
          Bool.true_and]
      · rw [Bool.eq_false_iff.mpr pattern, Bool.and_false]
    · rw [if_neg acts, if_neg acts]

/-! ## Words that are not split -/

theorem quoted_of_isFullyQuoted (full : isFullyQuoted (pieces.map (·.1.2)) = true)
    (styled : ∀ piece ∈ pieces, Styled piece.1) :
    (∀ piece ∈ pieces, isLiteral piece.1.2 = true → piece.1.1 = true) ∧
      ∃ piece ∈ pieces, isLiteral piece.1.2 = true := by
  rw [isFullyQuoted, Bool.and_eq_true, List.all_eq_true, List.any_eq_true] at full
  obtain ⟨all, part, member, quoted⟩ := full
  constructor
  · rintro ⟨⟨inQuotes, part⟩, field⟩ member literal
    cases part with
    | literal value style =>
        have outside := all _ (List.mem_map_of_mem member)
        exact (styled _ member value style rfl).mpr (bne_iff_ne.mp outside)
    | var name modifier => cases literal
    | commandSubstitution body backtick => cases literal
  · obtain ⟨piece, inside, rfl⟩ := List.mem_map.mp member
    refine ⟨piece, inside, ?_⟩
    rcases piece with ⟨⟨inQuotes, _ | _ | _⟩, field⟩
    · rfl
    · cases quoted
    · cases quoted

/-- Nothing acts in a pattern where only quoted text could. -/
theorem actsInPattern_standing (proper : ∀ piece ∈ pieces, Proper piece)
    (quoted : ∀ piece ∈ pieces, isLiteral piece.1.2 = true → piece.1.1 = true) :
    ∀ field ∈ standingFields pieces, actsInPattern field = false := by
  have inactive : ∀ letter ∈ (pieces.flatMap pieceMarks).filterMap Mark.character,
      letter.2 = false := by
    intro letter member
    obtain ⟨mark, inMarks, is⟩ := List.mem_filterMap.mp member
    obtain ⟨piece, inside, inPiece⟩ := List.mem_flatMap.mp inMarks
    rw [pieceMarks] at inPiece
    split at inPiece
    · split at inPiece
      · rcases List.mem_cons.mp inPiece with rfl | char
        · cases is
        · obtain ⟨c, -, rfl⟩ := List.mem_map.mp char
          cases is
          rfl
      · obtain ⟨c, -, rfl⟩ := List.mem_map.mp inPiece
        split at is
        · cases is
        · cases is
          rfl
    · rename_i unsplit
      rcases List.mem_cons.mp inPiece with rfl | char
      · cases is
      · obtain ⟨found, inZip, rfl⟩ := List.mem_map.mp char
        cases is
        have literal := (proper piece inside).splittable
        rw [Bool.eq_false_iff.mpr unsplit, Eq.comm, Bool.not_eq_false'] at literal
        exact (proper piece inside).inactive (quoted piece inside literal)
          (Bool.eq_false_iff.mpr unsplit) _ (List.of_mem_zip inZip).2
  intro field member
  rw [← Bool.not_eq_true, actsInPattern_iff]
  rintro ⟨letter, inField, active, -⟩
  have inMarks : letter ∈ (standingFields pieces).flatten :=
    List.mem_flatten.mpr ⟨field, member, inField⟩
  rw [standingFields, flatten_fieldsOfMarks] at inMarks
  exact Bool.false_ne_true ((inactive letter inMarks).symm.trans active)

theorem pieceText_eq {piece : Piece} (joined : piece.1.1 = false → ∀ c ∈ piece.2.text, joins c = true) :
    pieceText piece = piece.2.text := by
  rw [pieceText]
  split
  · rename_i both
    exact List.filter_eq_self.mpr (joined both.2)
  · rfl

/-- A word in quotes is a single field where no expansion outside quotes would be split. -/
theorem standing_single_iff (proper : ∀ piece ∈ pieces, Proper piece)
    (quoted : ∀ piece ∈ pieces, isLiteral piece.1.2 = true → piece.1.1 = true)
    (literal : ∃ piece ∈ pieces, isLiteral piece.1.2 = true) :
    (standingFields pieces).map (·.map (·.1)) = [pieces.flatMap (·.2.text)] ↔
      ∀ piece ∈ pieces, piece.1.1 = false → ∀ c ∈ piece.2.text, joins c = true := by
  have texts : letters (pieces.flatMap pieceMarks) = pieces.flatMap pieceText := by
    rw [letters_flatMap]
    exact List.flatMap_congr fun piece member => letters_pieceMarks (proper piece member)
  constructor
  · intro single
    have flat := congrArg List.flatten single
    rw [← List.map_flatten, standingFields, flatten_fieldsOfMarks, List.flatten_singleton] at flat
    change letters _ = _ at flat
    have counts := congrArg List.length (texts.symm.trans flat)
    rw [List.length_flatMap, List.length_flatMap] at counts
    have less : ∀ piece ∈ pieces, (pieceText piece).length ≤ piece.2.text.length := by
      intro piece _
      rw [pieceText]
      split
      · exact List.length_filter_le _ _
      · exact Nat.le_refl _
    intro piece member outside
    have split : piece.2.splittable = true := by
      rw [(proper piece member).splittable, Bool.not_eq_true', ← Bool.not_eq_true]
      exact fun text => Bool.false_ne_true (outside.symm.trans (quoted piece member text))
    have equal := eq_of_sum_eq less counts piece member
    rw [pieceText, if_pos ⟨split, outside⟩] at equal
    exact filter_joins_length equal
  · intro joined
    have opened : ∀ mark ∈ pieces.flatMap pieceMarks, mark.isBlank = false := by
      intro mark member
      obtain ⟨piece, inside, inPiece⟩ := List.mem_flatMap.mp member
      by_cases text : (piece.1.1 || isLiteral piece.1.2) = true
      · exact pieceMarks_open text (proper piece inside) mark inPiece
      · rw [Bool.or_eq_true, not_or, Bool.not_eq_true, Bool.not_eq_true] at text
        have split : piece.2.splittable = true := by
          rw [(proper piece inside).splittable, text.2]
          rfl
        rw [pieceMarks, if_pos split, if_neg (by rw [text.1]; exact Bool.false_ne_true),
          splitMarks_joins (joined piece inside text.1)] at inPiece
        obtain ⟨c, -, rfl⟩ := List.mem_map.mp inPiece
        rfl
    have nonempty : pieces.flatMap pieceMarks ≠ [] := by
      obtain ⟨piece, inside, text⟩ := literal
      intro none
      refine pieceMarks_ne_nil ?_ (proper piece inside) (List.flatMap_eq_nil_iff.mp none piece inside)
      rw [text, Bool.or_true]
    rw [standingFields, fieldsOfMarks, groups_open Mark.isBlank opened nonempty]
    refine congrArg (fun text => [text]) (texts.trans ?_)
    exact List.flatMap_congr fun piece member => pieceText_eq (joined piece member)

end Paths

/-! ## Words of the source -/

section Words

/-- Quotes of a part are told by its style, and a quoted expansion has text before it. -/
structure Sourced (source : List SourcePart) : Prop where
  styled : ∀ part ∈ source, Styled part
  anchored : ∀ anchored, Anchored anchored source

theorem Anchored.inQuotes {source later : List SourcePart} (quoted : ∀ part ∈ source, part.1 = true)
    (behind : Anchored true later) : Anchored true (source ++ later) := by
  induction source with
  | nil => exact behind
  | cons part source ih =>
      refine ⟨fun _ _ => rfl, ?_⟩
      rw [quoted part List.mem_cons_self]
      exact ih fun other member => quoted other (List.mem_cons_of_mem part member)

-- How the text of a substitution is parsed.
variable {parse : List Char → Except ParseError CommandList}

theorem resolvePart_literal {span : Span}
    {part : WordPart Char (List Char)} {value : List Char} {style : QuoteStyle}
    (resolved : resolvePart parse span part = .ok (.literal value style)) :
    part = .literal value style := by
  cases part with
  | literal found quoted =>
      cases resolved
      rfl
  | var name modifier => cases resolved
  | commandSubstitution content backtick =>
      rw [resolvePart, parseCommandSubstitution] at resolved
      split at resolved
      · cases resolved
      · cases resolved

theorem Sourced.token {token : Token Char} {parts : List (WordPart Char CommandList)}
    (well : token.kind.IsWellQuoted) (read : tokenToParts parse token = .ok parts)
    {later : List SourcePart} (sourced : Sourced later) :
    Sourced (parts.map (token.kind.isQuoted, ·) ++ later) := by
  have single {quoted : Bool} {part : WordPart Char CommandList} (styled : Styled (quoted, part))
      (outside : quoted = true → isLiteral part = true) :
      Sourced ([part].map (quoted, ·) ++ later) := by
    refine ⟨?_, fun _ => ⟨fun inside expansion => ?_, sourced.anchored _⟩⟩
    · intro other member
      rcases List.mem_cons.mp member with rfl | behind
      · exact styled
      · exact sourced.styled other behind
    · exact absurd (expansion.symm.trans (outside inside)) Bool.false_ne_true
  obtain ⟨kind, span⟩ := token
  cases kind with
  | word word =>
      cases read
      refine single ?_ fun _ => rfl
      rintro value style ⟨⟩
      exact iff_of_false Bool.false_ne_true fun other => other rfl
  | singleQuoted content =>
      cases read
      refine single ?_ fun _ => rfl
      rintro value style ⟨⟩
      exact iff_of_true rfl (by decide)
  | var name modifier =>
      cases read
      refine single ?_ fun inside => ?_
      · rintro value style ⟨⟩
      · cases inside
  | commandSubstitution content backtick =>
      obtain ⟨part, substituted, returned⟩ := bind_eq_ok.mp read
      cases returned
      rw [parseCommandSubstitution] at substituted
      split at substituted
      · cases substituted
      · cases substituted
        refine single ?_ fun inside => ?_
        · rintro value style ⟨⟩
        · cases inside
  | doubleQuoted quoted =>
      rw [tokenToParts] at read
      dsimp only at read
      split at read
      · cases read
        refine single ?_ fun _ => rfl
        rintro value style ⟨⟩
        exact iff_of_true rfl (by decide)
      · rename_i nonempty
        have resolved := mapM_eq_ok.mp read
        have well := well quoted rfl
        have inside : ∀ part ∈ parts.map (true, ·), part.1 = true := by
          intro part member
          obtain ⟨found, -, rfl⟩ := List.mem_map.mp member
          rfl
        refine ⟨?_, fun _ => ?_⟩
        · intro part member
          rcases List.mem_append.mp member with first | behind
          · obtain ⟨found, among, rfl⟩ := List.mem_map.mp first
            rintro value style same
            change found = _ at same
            subst same
            obtain ⟨original, from_, made⟩ := mem_of_mapM read among
            rw [resolvePart_literal made] at from_
            rw [well.double value style from_]
            exact iff_of_true rfl (by decide)
          · exact sourced.styled part behind
        · cases resolved with
          | nil => exact absurd rfl nonempty
          | cons made others =>
              obtain ⟨value, rfl⟩ := well.begins _ _ rfl
              cases made
              refine ⟨fun _ expansion => ?_, ?_⟩
              · cases expansion
              · exact Anchored.inQuotes (fun part member => inside part
                  (List.mem_cons_of_mem _ member)) (sourced.anchored true)
  | _ =>
      cases read
      exact sourced

/-- The source of a word that the lexer has read. -/
theorem Sourced.of_tokens {input : List Char} {tokens run : List (Token Char)}
    {source : List SourcePart} (read : tokenize input = .ok tokens)
    (inside : ∀ token ∈ run, token ∈ tokens) (parts : sourceParts parse run = .ok source) :
    Sourced source := by
  obtain ⟨found, all, returned⟩ := bind_eq_ok.mp parts
  cases returned
  have each := mapM_eq_ok.mp all
  clear parts all
  induction each with
  | nil => exact ⟨fun _ none => absurd none List.not_mem_nil, fun _ => trivial⟩
  | cons one _ ih =>
      obtain ⟨parts, converted, returned⟩ := bind_eq_ok.mp one
      cases returned
      exact Sourced.token (tokenize_wellQuoted read _ (inside _ List.mem_cons_self)) converted
        (ih fun token member => inside token (List.mem_cons_of_mem _ member))

end Words

/-! ## When quotes are kept -/

/-- The expander's guess about the quotes of a word does no harm.  A word that it takes to be
in quotes must not have an expansion outside them that would be split. -/
def QuotesKept (pieces : List Piece) : Prop :=
  if isFullyQuoted (pieces.map (·.1.2)) then
    ∀ piece ∈ pieces, piece.1.1 = false → ∀ c ∈ piece.2.text, joins c = true
  else Kept pieces

section Words

variable {ε : Type} {around : Surroundings ε} {span : Span} {context after : Context}
  {source : List SourcePart} {fields : List ExpandedField}

theorem expandWordSplitGlob_failed (pathnames : Pathnames ε) {error : ε}
    (failed : fieldsOfParts around span true context (source.map (·.2)) = .error error) :
    expandWordSplitGlob around pathnames context ⟨source.map (·.2), span⟩ = .error error := by
  rw [expandWordSplitGlob]
  split
  · have text := @expandWordFrom_text ε around span true context .new (source.map (·.2))
    rw [failed] at text
    rw [expandWord]
    rcases found : expandWordFrom around span true .new context (source.map (·.2))
      with other | found'
    · rw [found] at text
      cases text
      dsimp only
      rw [found]
      rfl
    · rw [found] at text
      cases text
  · dsimp only
    rw [failed]
    rfl

theorem sourceFields_failed (styled : ∀ part ∈ source, Styled part) (pathnames : Pathnames ε)
    {error : ε} (failed : fieldsOfParts around span true context (source.map (·.2)) = .error error) :
    sourceFields around pathnames context source span = .error error := by
  rw [sourceFields, marksOfParts_eq styled, failed]
  rfl

/-- A word that is taken to be in quotes has its text for a field. -/
theorem expandWordSplitGlob_quoted (pathnames : Pathnames ε)
    (full : isFullyQuoted (source.map (·.2)) = true)
    (expanded : fieldsOfParts around span true context (source.map (·.2)) = .ok (fields, after)) :
    expandWordSplitGlob around pathnames context ⟨source.map (·.2), span⟩ =
      .ok ([fields.flatMap (·.text)], after) := by
  have text := @expandWordFrom_text ε around span true context .new (source.map (·.2))
  rw [expanded] at text
  rw [expandWordSplitGlob, if_pos full, expandWord]
  rcases found : expandWordFrom around span true .new context (source.map (·.2))
    with error | ⟨result, last⟩
  · rw [found] at text
    cases text
  · rw [found] at text
    obtain ⟨same, rfl⟩ := Prod.mk.inj (Except.ok.inj text)
    dsimp only
    rw [found]
    exact congrArg (fun text => Except.ok ([text], last)) same

theorem expandWordSplitGlob_split (pathnames : Pathnames ε)
    (split : ¬isFullyQuoted (source.map (·.2)) = true)
    (expanded : fieldsOfParts around span true context (source.map (·.2)) = .ok (fields, after))
    (default : getIfs after = defaultIfs) :
    expandWordSplitGlob around pathnames context ⟨source.map (·.2), span⟩ =
      ((fieldsOfMarks (fields.flatMap expanderMarks)).mapM fun field =>
        expandField pathnames (.of field)).map fun results => (results.flatten, after) := by
  rw [expandWordSplitGlob, if_neg split]
  dsimp only
  rw [expanded]
  change ((splitFieldsWithEligibility fields (getIfs after)).mapM (expandField pathnames) >>=
    fun results => .ok (results.flatten, after)) = _
  rw [default, splitFields_eq, List.mapM_map]
  rfl

theorem sourceFields_ok (styled : ∀ part ∈ source, Styled part) (pathnames : Pathnames ε)
    (expanded : fieldsOfParts around span true context (source.map (·.2)) = .ok (fields, after)) :
    sourceFields around pathnames context source span =
      ((standingFields (source.zip fields)).mapM (pathsOfField pathnames)).map fun results =>
        (results.flatten, after) := by
  rw [sourceFields, marksOfParts_eq styled, expanded]
  rfl

theorem map_flatten_iff {first second : Except ε (List (List (List Char)))} (after : Context) :
    first.map (fun results => (results.flatten, after)) =
        second.map (fun results => (results.flatten, after)) ↔
      first.map List.flatten = second.map List.flatten := by
  have paired (outcome : Except ε (List (List (List Char)))) :
      outcome.map (fun results => (results.flatten, after)) =
        (outcome.map List.flatten).map fun paths => (paths, after) := by
    cases outcome <;> rfl
  rw [paired first, paired second]
  refine ⟨fun same => ?_, fun same => congrArg _ same⟩
  have unpaired := congrArg (Except.map Prod.fst) same
  rcases first with error | results <;> rcases second with other | others <;> exact unpaired

/-- The paths of a word agree where its quotes are kept. -/
theorem expanded_iff (sourced : Sourced source)
    (expanded : fieldsOfParts around span true context (source.map (·.2)) = .ok (fields, after))
    (default : getIfs after = defaultIfs) :
    (∀ pathnames : Pathnames ε,
      expandWordSplitGlob around pathnames context ⟨source.map (·.2), span⟩ =
        sourceFields around pathnames context source span) ↔
      QuotesKept (source.zip fields) := by
  obtain ⟨counted, proper⟩ := fieldsOfParts_proper sourced.styled expanded
  have parts : (source.zip fields).map (·.1) = source :=
    List.map_fst_zip (Nat.le_of_eq counted.symm)
  have values : (source.zip fields).map (·.2) = fields :=
    List.map_snd_zip (Nat.le_of_eq counted)
  have words : (source.zip fields).map (·.1.2) = source.map (·.2) := by
    rw [← congrArg (List.map (·.2)) parts, List.map_map]
    rfl
  rw [QuotesKept, words]
  by_cases full : isFullyQuoted (source.map (·.2)) = true
  · rw [if_pos full]
    have styled : ∀ piece ∈ source.zip fields, Styled piece.1 := fun piece member =>
      sourced.styled piece.1 (List.of_mem_zip member).1
    obtain ⟨quoted, literal⟩ := quoted_of_isFullyQuoted (words.symm ▸ full) styled
    rw [← standing_single_iff proper quoted literal]
    have texts : (source.zip fields).flatMap (·.2.text) = fields.flatMap (·.text) := by
      rw [← congrArg (List.flatMap (·.text)) values, List.flatMap_map]
    have paths (pathnames : Pathnames ε) :
        (standingFields (source.zip fields)).mapM (pathsOfField pathnames) =
          .ok ((standingFields (source.zip fields)).map fun field => [field.map (·.1)]) := by
      have plain : ∀ field ∈ standingFields (source.zip fields),
          pathsOfField pathnames field = .ok [field.map (·.1)] := fun field member =>
        if_neg (Bool.eq_false_iff.mp (actsInPattern_standing proper quoted field member))
      rw [mapM_congr plain]
      exact List.mapM_pure
    have flattened (fields : List (List (Char × Bool))) :
        (fields.map fun field => [field.map (·.1)]).flatten = fields.map (·.map (·.1)) := by
      rw [← List.flatMap_def]
      exact (List.map_eq_flatMap ..).symm
    constructor
    · intro same
      have agree := same spelled
      rw [expandWordSplitGlob_quoted spelled full expanded,
        sourceFields_ok sourced.styled spelled expanded, paths spelled] at agree
      have results := congrArg Prod.fst (Except.ok.inj agree)
      dsimp only at results
      rw [texts, results, flattened]
    · intro single pathnames
      rw [expandWordSplitGlob_quoted pathnames full expanded,
        sourceFields_ok sourced.styled pathnames expanded, paths pathnames]
      refine congrArg (fun found => Except.ok (found, after)) ?_
      rw [flattened, single, texts]
  · rw [if_neg full, ← @samePaths_iff ε _ proper (parts.symm ▸ sourced.anchored false)]
    have seen : fields.flatMap expanderMarks = (source.zip fields).flatMap (expanderMarks ·.2) := by
      rw [← congrArg (List.flatMap expanderMarks) values, List.flatMap_map]
    refine forall_congr' fun pathnames => ?_
    rw [expandWordSplitGlob_split pathnames full expanded default,
      sourceFields_ok sourced.styled pathnames expanded, map_flatten_iff, SamePaths, seenFields,
      seen]

end Words

/-- A word is expanded to the fields of its source if and only if its quotes are kept. -/
theorem expandWordSplitGlob_quoting {ε : Type} (around : Surroundings ε) (context : Context)
    (span : Span) {parse : List Char → Except ParseError CommandList} {input : List Char}
    {tokens run : List (Token Char)} {source : List SourcePart} (read : tokenize input = .ok tokens)
    (inside : ∀ token ∈ run, token ∈ tokens) (parts : sourceParts parse run = .ok source)
    (default : ∀ fields after, fieldsOfParts around span true context (source.map (·.2)) =
      .ok (fields, after) → getIfs after = defaultIfs) :
    (∀ pathnames : Pathnames ε,
      expandWordSplitGlob around pathnames context ⟨source.map (·.2), span⟩ =
        sourceFields around pathnames context source span) ↔
      ∀ fields after, fieldsOfParts around span true context (source.map (·.2)) =
        .ok (fields, after) → QuotesKept (source.zip fields) := by
  have sourced := Sourced.of_tokens read inside parts
  rcases expanded : fieldsOfParts around span true context (source.map (·.2))
    with error | ⟨fields, after⟩
  · refine iff_of_true (fun pathnames => ?_) ?_
    · rw [expandWordSplitGlob_failed pathnames expanded,
        sourceFields_failed sourced.styled pathnames expanded]
    · intro fields after returned
      rw [expanded] at returned
      cases returned
  · rw [expanded_iff sourced expanded (default fields after expanded)]
    constructor
    · intro kept others last returned
      rw [expanded] at returned
      cases returned
      exact kept
    · exact fun kept => kept fields after expanded

def bareSurroundings : Surroundings Unit where
  homeDir := none
  user := none
  processId := 1
  undefinedVariable := fun _ _ => ()
  applyModifier := fun _ _ _ _ _ => .error ()
  executeSubstitution := fun _ _ => .error ()

/-- The variable `x` has a blank in its value. -/
def blankContext : Context where
  vars := fun name => if name = ['x'] then some "a b".toList else none
  lastExitCode := 0
  ifs := defaultIfs

theorem expandWordSplitGlob_quoting_suffix :
    tokenize "$x.*".toList =
        .ok [⟨.var ['x'] none, ⟨0, 2⟩⟩, ⟨.word ".*".toList, ⟨2, 4⟩⟩] ∧
      ∀ pathnames : Pathnames Unit,
        expandWordSplitGlob bareSurroundings pathnames blankContext
            ⟨[.var ['x'] none, .literal ".*".toList .unquoted], ⟨0, 4⟩⟩ =
          sourceFields bareSurroundings pathnames blankContext
            [(false, .var ['x'] none), (false, .literal ".*".toList .unquoted)] ⟨0, 4⟩ := by
  let tokens : List (Token Char) := [⟨.var ['x'] none, ⟨0, 2⟩⟩, ⟨.word ".*".toList, ⟨2, 4⟩⟩]
  let source : List SourcePart :=
    [(false, .var ['x'] none), (false, .literal ".*".toList .unquoted)]
  have read : tokenize "$x.*".toList = .ok tokens := by decide +kernel
  refine ⟨read, ?_⟩
  have expanded : fieldsOfParts bareSurroundings ⟨0, 4⟩ true blankContext (source.map (·.2)) =
      .ok ([.split "a b".toList, .literal ".*".toList true true], blankContext) := rfl
  refine (@expandWordSplitGlob_quoting Unit bareSurroundings blankContext ⟨0, 4⟩ Parser.parse _
    tokens tokens source read (fun _ member => member) rfl ?_).mpr ?_
  · intro fields after returned
    cases expanded.symm.trans returned
    rfl
  · intro fields after returned
    cases expanded.symm.trans returned
    have fields : fieldsOfMarks ((source.zip [.split "a b".toList,
        .literal ".*".toList true true]).flatMap pieceMarks) =
          [[('a', false)], [('b', false), ('.', true), ('*', true)]] := rfl
    refine ⟨?_, ?_, ?_⟩
    · intro piece member literal
      rcases List.mem_cons.mp member with rfl | last
      · cases literal
      · cases List.mem_singleton.mp last
        exact List.all_eq_true.mp rfl
    · intro piece member quoted
      rcases List.mem_cons.mp member with rfl | last
      · cases quoted
      · cases List.mem_singleton.mp last
        cases quoted
    · rw [fields]
      decide

/-- `"$x"suffix` is split at the blank of the value, and `$x"suffix"` is not. -/
theorem expandWordSplitGlob_guesses_quotes :
    (∃ tokens source, tokenize "\"$x\"suffix".toList = .ok tokens ∧
        sourceParts Parser.parse tokens = .ok source ∧
        (expandWordSplitGlob bareSurroundings spelled blankContext
          ⟨source.map (·.2), ⟨0, 10⟩⟩).map (·.1) = .ok ["a".toList, "bsuffix".toList] ∧
        (sourceFields bareSurroundings spelled blankContext source ⟨0, 10⟩).map (·.1) =
          .ok ["a bsuffix".toList]) ∧
      ∃ tokens source, tokenize "$x\"suffix\"".toList = .ok tokens ∧
        sourceParts Parser.parse tokens = .ok source ∧
        (expandWordSplitGlob bareSurroundings spelled blankContext
          ⟨source.map (·.2), ⟨0, 10⟩⟩).map (·.1) = .ok ["a bsuffix".toList] ∧
        (sourceFields bareSurroundings spelled blankContext source ⟨0, 10⟩).map (·.1) =
          .ok ["a".toList, "bsuffix".toList] := by
  constructor
  · iterate 2 apply Exists.intro
    with_unfolding_all exact ⟨rfl, rfl, rfl, rfl⟩
  · iterate 2 apply Exists.intro
    with_unfolding_all exact ⟨rfl, rfl, rfl, rfl⟩

end OddJobs.Shell
