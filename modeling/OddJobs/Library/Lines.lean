import Mathlib.Data.List.Basic

/-!
# Logs of lines

A log read line by line: a line ends with the delimiter, or at the end of the
log.  Reading at an offset that ends a line gives the lines that follow.
-/

namespace OddJobs.Library.Lines

variable {α : Type} [DecidableEq α] (stop : α)

/-- The lines of a log, each with its delimiter, the last one perhaps without. -/
def lines : List α → List (List α)
  | [] => []
  | symbol :: rest =>
      if symbol = stop then [symbol] :: lines rest
      else
        match lines rest with
        | [] => [[symbol]]
        | line :: later => (symbol :: line) :: later

/-- The log is empty or its last line has its delimiter. -/
def Terminated (log : List α) : Prop := log = [] ∨ ∃ front, log = front ++ [stop]

variable {stop}

omit [DecidableEq α] in
theorem terminated_nil : Terminated stop [] := Or.inl rfl

omit [DecidableEq α] in
theorem terminated_line (line : List α) : Terminated stop (line ++ [stop]) := Or.inr ⟨line, rfl⟩

omit [DecidableEq α] in
theorem Terminated.append {left right : List α} (leftEnds : Terminated stop left)
    (rightEnds : Terminated stop right) : Terminated stop (left ++ right) := by
  rcases rightEnds with rfl | ⟨front, rfl⟩
  · rw [List.append_nil]
    exact leftEnds
  · exact Or.inr ⟨left ++ front, by simp⟩

omit [DecidableEq α] in
theorem Terminated.flatten {pieces : List (List α)} (ends : ∀ piece ∈ pieces, Terminated stop piece) :
    Terminated stop pieces.flatten := by
  induction pieces with
  | nil => exact terminated_nil
  | cons piece rest ih =>
      exact (ends piece List.mem_cons_self).append
        (ih fun other member => ends other (List.mem_cons_of_mem _ member))

/-- No symbol is lost. -/
theorem flatten_lines (log : List α) : (lines stop log).flatten = log := by
  induction log with
  | nil => rfl
  | cons symbol rest ih =>
      by_cases ends : symbol = stop
      · simp [lines, ends, ih]
      · cases later : lines stop rest with
        | nil =>
            rw [later] at ih
            simp [lines, ends, ← ih]
        | cons line others =>
            rw [later] at ih
            simp only [lines, ends, ↓reduceIte, later, List.flatten_cons, List.cons_append]
            rw [← ih, List.flatten_cons]

theorem lines_ne_nil {log : List α} (nonempty : log ≠ []) : lines stop log ≠ [] := by
  intro none
  have all : (lines stop log).flatten = log := flatten_lines log
  rw [none] at all
  exact nonempty all.symm

/-- Every line has a symbol. -/
theorem ne_nil_of_mem_lines {log line : List α} (member : line ∈ lines stop log) : line ≠ [] := by
  induction log generalizing line with
  | nil => cases member
  | cons symbol rest ih =>
      by_cases ends : symbol = stop
      · simp only [lines, ends, ↓reduceIte] at member
        rcases List.mem_cons.mp member with rfl | later
        · exact List.cons_ne_nil _ _
        · exact ih later
      · cases found : lines stop rest with
        | nil =>
            simp only [lines, ends, ↓reduceIte, found] at member
            rw [List.mem_singleton.mp member]
            exact List.cons_ne_nil _ _
        | cons first others =>
            simp only [lines, ends, ↓reduceIte, found] at member
            rcases List.mem_cons.mp member with rfl | later
            · exact List.cons_ne_nil _ _
            · exact ih (by rw [found]; exact List.mem_cons_of_mem _ later)

/-- The delimiter stands nowhere but at the end of a line. -/
theorem mem_lines_shape {log line : List α} (member : line ∈ lines stop log) :
    ∃ front, stop ∉ front ∧ (line = front ∨ line = front ++ [stop]) := by
  induction log generalizing line with
  | nil => cases member
  | cons symbol rest ih =>
      by_cases ends : symbol = stop
      · simp only [lines, ends, ↓reduceIte] at member
        rcases List.mem_cons.mp member with rfl | later
        · exact ⟨[], List.not_mem_nil, Or.inr rfl⟩
        · exact ih later
      · have outside : ∀ front : List α, stop ∉ front → stop ∉ symbol :: front :=
          fun front inside held => (List.mem_cons.mp held).elim (fun same => ends same.symm) inside
        cases found : lines stop rest with
        | nil =>
            simp only [lines, ends, ↓reduceIte, found] at member
            rw [List.mem_singleton.mp member]
            exact ⟨[symbol], outside [] List.not_mem_nil, Or.inl rfl⟩
        | cons first others =>
            simp only [lines, ends, ↓reduceIte, found] at member
            rcases List.mem_cons.mp member with rfl | later
            · obtain ⟨front, inside, shape⟩ := ih (by rw [found]; exact List.mem_cons_self)
              refine ⟨symbol :: front, outside front inside, ?_⟩
              rcases shape with rfl | rfl
              · exact Or.inl rfl
              · exact Or.inr rfl
            · exact ih (by rw [found]; exact List.mem_cons_of_mem _ later)

/-- A log without a delimiter is one line. -/
theorem lines_unterminated {line : List α} (nonempty : line ≠ []) (inside : stop ∉ line) :
    lines stop line = [line] := by
  induction line with
  | nil => exact absurd rfl nonempty
  | cons symbol rest ih =>
      have continues : symbol ≠ stop := fun same => inside (same ▸ List.mem_cons_self)
      cases rest with
      | nil => simp [lines, continues]
      | cons next tail =>
          have later := ih (List.cons_ne_nil _ _) fun member => inside (List.mem_cons_of_mem _ member)
          simp only [lines, continues, ↓reduceIte] at later ⊢
          simp [later]

theorem lines_cons_line {line : List α} (inside : stop ∉ line) (rest : List α) :
    lines stop (line ++ stop :: rest) = (line ++ [stop]) :: lines stop rest := by
  induction line with
  | nil => simp [lines]
  | cons symbol tail ih =>
      have continues : symbol ≠ stop := fun same => inside (same ▸ List.mem_cons_self)
      have later := ih fun member => inside (List.mem_cons_of_mem _ member)
      simp [lines, continues, later]

/-- What stands before a log and holds no delimiter belongs to its first line. -/
theorem lines_append_of_notMem {front : List α} (nonempty : front ≠ []) (inside : stop ∉ front)
    (rest : List α) :
    lines stop (front ++ rest) =
      (front ++ (lines stop rest).headD []) :: (lines stop rest).tail := by
  induction front with
  | nil => exact absurd rfl nonempty
  | cons symbol later ih =>
      have continues : symbol ≠ stop := fun same => inside (same ▸ List.mem_cons_self)
      cases later with
      | nil => cases found : lines stop rest <;> simp [lines, continues, found]
      | cons next tail =>
          have read := ih (List.cons_ne_nil _ _) fun member => inside (List.mem_cons_of_mem _ member)
          rw [List.cons_append, lines, if_neg continues, read]
          simp

/-- Lines written one after the other are read back. -/
theorem lines_flatMap {β : Type} {pieces : List β} {write : β → List α}
    (shape : ∀ piece ∈ pieces, ∃ front, stop ∉ front ∧ write piece = front ++ [stop])
    (rest : List α) :
    lines stop (pieces.flatMap write ++ rest) = pieces.map write ++ lines stop rest := by
  induction pieces with
  | nil => rfl
  | cons piece others ih =>
      obtain ⟨front, inside, written⟩ := shape piece List.mem_cons_self
      have later := ih fun other member => shape other (List.mem_cons_of_mem _ member)
      rw [List.flatMap_cons, written, List.append_assoc, List.append_assoc, List.singleton_append,
        lines_cons_line inside, later, List.map_cons, written]
      rfl

/-- Lines of two logs, the first of which ends at a delimiter. -/
theorem lines_append {left : List α} (ends : Terminated stop left) (right : List α) :
    lines stop (left ++ right) = lines stop left ++ lines stop right := by
  rcases ends with rfl | ⟨front, rfl⟩
  · rfl
  · induction front with
    | nil => simp [lines]
    | cons symbol tail ih =>
        by_cases same : symbol = stop
        · simp only [List.cons_append, lines, same, ↓reduceIte]
          rw [ih]
        · simp only [List.cons_append, lines, same, ↓reduceIte]
          rw [ih]
          cases found : lines stop (tail ++ [stop]) with
          | nil => exact absurd found (lines_ne_nil (by simp))
          | cons first others => rfl

/-- Every line of a delimited log has its delimiter. -/
theorem stop_mem_of_terminated {log line : List α} (ends : Terminated stop log)
    (member : line ∈ lines stop log) : stop ∈ line := by
  rcases ends with rfl | ⟨front, rfl⟩
  · cases member
  · induction front generalizing line with
    | nil =>
        have whole : lines stop ([] ++ [stop]) = [[stop]] := by simp [lines]
        rw [whole] at member
        rw [List.mem_singleton.mp member]
        exact List.mem_cons_self
    | cons symbol tail ih =>
        by_cases same : symbol = stop
        · simp only [List.cons_append, lines, same, ↓reduceIte] at member
          rcases List.mem_cons.mp member with rfl | later
          · exact List.mem_cons_self
          · exact ih later
        · simp only [List.cons_append, lines, same, ↓reduceIte] at member
          cases found : lines stop (tail ++ [stop]) with
          | nil => exact absurd found (lines_ne_nil (by simp))
          | cons first others =>
              rw [found] at member
              rcases List.mem_cons.mp member with rfl | later
              · exact List.mem_cons_of_mem _ (ih (by rw [found]; exact List.mem_cons_self))
              · exact ih (by rw [found]; exact List.mem_cons_of_mem _ later)

/-- Reading past the first line gives the later ones. -/
theorem lines_drop_line {log line : List α} {later : List (List α)}
    (split : lines stop log = line :: later) : lines stop (log.drop line.length) = later := by
  induction log generalizing line later with
  | nil => cases split
  | cons symbol rest ih =>
      by_cases ends : symbol = stop
      · simp only [lines, ends, ↓reduceIte, List.cons.injEq] at split
        obtain ⟨rfl, rfl⟩ := split
        rfl
      · cases found : lines stop rest with
        | nil =>
            simp only [lines, ends, ↓reduceIte, found, List.cons.injEq] at split
            obtain ⟨rfl, rfl⟩ := split
            exact found
        | cons first others =>
            simp only [lines, ends, ↓reduceIte, found, List.cons.injEq] at split
            obtain ⟨rfl, rfl⟩ := split
            exact ih found

/-- Reading at the end of some lines gives the lines that follow them. -/
theorem lines_drop_lines {log : List α} {early late : List (List α)}
    (split : lines stop log = early ++ late) :
    lines stop (log.drop early.flatten.length) = late := by
  induction early generalizing log with
  | nil => simpa using split
  | cons line rest ih =>
      have later := ih (lines_drop_line split)
      rwa [List.drop_drop, ← List.length_append] at later

/-- A log splits into its delimited lines and what follows the last delimiter. -/
theorem exists_tail (log : List α) :
    ∃ front tail, log = front ++ tail ∧ Terminated stop front ∧ stop ∉ tail := by
  induction log with
  | nil => exact ⟨[], [], rfl, terminated_nil, List.not_mem_nil⟩
  | cons symbol rest ih =>
      obtain ⟨front, tail, rfl, ends, inside⟩ := ih
      by_cases same : symbol = stop
      · subst same
        exact ⟨symbol :: front, tail, rfl,
          (terminated_line ([] : List α)).append ends, inside⟩
      · cases front with
        | nil =>
            exact ⟨[], symbol :: tail, rfl, terminated_nil, fun member =>
              (List.mem_cons.mp member).elim (fun equal => same equal.symm) inside⟩
        | cons first others =>
            refine ⟨symbol :: first :: others, tail, rfl, ?_, inside⟩
            rcases ends with none | ⟨begin_, split⟩
            · cases none
            · exact Or.inr ⟨symbol :: begin_, by rw [split]; rfl⟩

/-! ## Lines of text -/

/-- A line without its line feed, and without a carriage return before it. -/
def stripEnd (line : List Char) : List Char :=
  if line.getLast? = some '\n' then
    let line := line.dropLast
    if line.getLast? = some '\r' then line.dropLast else line
  else line

def ofText (text : List Char) : List (List Char) := (lines '\n' text).map stripEnd

end OddJobs.Library.Lines
