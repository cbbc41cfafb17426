import Pwos.Search.SearchText

/-!
# CSV texts

`csvTextCell` of `lib/csv.ts` and `csvCells` of `features/bankImport/parser.ts`. The writer quotes
every cell, and the reader follows quotes over line breaks. Its delimiter is guessed from the first
line of the text, where a quoted cell can be cut off.
-/

namespace Pwos
namespace Csv

/-! ## Writing -/

/-- `/^[\s\uFEFF]*[=+@-]/u` or `/^[\t\r\n]/u`. -/
def isFormula (value : Text) : Bool :=
  ((value.dropWhile isBlank).head?.any fun c => c = '=' || c = '+' || c = '@' || c = '-') ||
    value.head?.any fun c => c = '\t' || c = '\r' || c = '\n'

/-- A text that a spreadsheet would take for a formula gets an apostrophe. -/
def safe (value : Text) : Text := if isFormula value then '\'' :: value else value

/-- `replace(/"/g, '""')`. -/
def doubled (value : Text) : Text := value.flatMap fun c => if c = '"' then ['"', '"'] else [c]

def csvTextCell (value : Text) : Text := '"' :: doubled (safe value) ++ ['"']

/-- Cells are joined with commas, rows with line breaks. -/
def csvText (table : List (List Text)) : Text :=
  ['\n'].intercalate (table.map fun row => [','].intercalate (row.map csvTextCell))

/-! ## Reading -/

def MAX_IMPORT_ROWS : Nat := 100

/-- The rows that were read, the row and the cell that are being read, and whether the cell stands
in quotes. -/
structure Reading where
  rows : List (List Text)
  row : List Text
  cell : Text
  quoted : Bool
  deriving DecidableEq, Repr

/-- `row.some((c) => c.trim())`. -/
def hasText (row : List Text) : Bool := row.any fun c => trim c ≠ []

/-- The loop, from a place on. It passes over a character that was read with the one before. -/
def readFrom (delimiter : Char) : Bool → Reading → Text → Except String Reading
  | _, r, [] => .ok r
  | true, r, _ :: rest => readFrom delimiter false r rest
  | false, r, ch :: rest =>
    if ch = '"' then
      if r.quoted && rest.head? = some '"' then
        readFrom delimiter true { r with cell := r.cell ++ ['"'] } rest
      else if r.quoted || r.cell = [] then
        readFrom delimiter false { r with quoted := !r.quoted } rest
      else .error "ساختار نقل‌قول CSV معتبر نیست."
    else if ch = delimiter && !r.quoted then
      readFrom delimiter false { r with row := r.row ++ [r.cell], cell := [] } rest
    else if (ch = '\n' || ch = '\r') && !r.quoted then
      let row := r.row ++ [r.cell]
      let rows := if hasText row then r.rows ++ [row] else r.rows
      if rows.length > MAX_IMPORT_ROWS + 1 then .error "در هر نوبت حداکثر ۱۰۰ ردیف وارد کنید."
      else
        readFrom delimiter (ch = '\r' && rest.head? = some '\n')
          { rows, row := [], cell := [], quoted := r.quoted } rest
    else readFrom delimiter false { r with cell := r.cell ++ [ch] } rest

def beforeBreak (text : Text) : Text := text.takeWhile (· ≠ '\n')

/-- `text.split(/\r?\n/, 1)[0]`. -/
def firstLine (text : Text) : Text :=
  let line := beforeBreak text
  if line.length < text.length && line.getLast? = some '\r' then line.dropLast else line

def guessDelimiter (text : Text) : Char :=
  if (firstLine text).contains ';' && !(firstLine text).contains ',' then ';' else ','

/-- The end of the text. -/
def finished (r : Reading) : Except String (List (List Text)) :=
  if r.quoted then .error "نقل‌قول CSV بسته نشده است."
  else
    let row := r.row ++ [r.cell]
    .ok (if hasText row then r.rows ++ [row] else r.rows)

def csvCells (text : Text) : Except String (List (List Text)) :=
  readFrom (guessDelimiter text) false ⟨[], [], [], false⟩ text >>= finished

example : csvCells "\"مبلغ\",\"شرح\"\n\"1,200\",\"نان \"\"تازه\"\"\"".toList =
    .ok [["مبلغ".toList, "شرح".toList], ["1,200".toList, "نان \"تازه\"".toList]] := by decide

/-! ## A row is read back -/

section Row
variable {d : Char} {rows : List (List Text)} {row : List Text} {cell v rest : Text}

theorem readFrom_plain {c : Char} (hc : c ≠ '"') :
    readFrom d false ⟨rows, row, cell, true⟩ (c :: rest) =
      readFrom d false ⟨rows, row, cell ++ [c], true⟩ rest := by
  simp [readFrom, hc]

/-- What was written between quotes is read to the closing one. -/
theorem readFrom_doubled (hrest : rest.head? ≠ some '"') :
    readFrom d false ⟨rows, row, cell, true⟩ (doubled v ++ '"' :: rest) =
      readFrom d false ⟨rows, row, cell ++ v, false⟩ rest := by
  induction v generalizing cell with
  | nil => simp [doubled, readFrom, hrest]
  | cons c v ih =>
    have hcons : doubled (c :: v) = (if c = '"' then ['"', '"'] else [c]) ++ doubled v := rfl
    rw [hcons]
    by_cases hc : c = '"'
    · rw [if_pos hc, hc]
      have hpair : readFrom d false ⟨rows, row, cell, true⟩
          ('"' :: '"' :: (doubled v ++ '"' :: rest)) =
            readFrom d false ⟨rows, row, cell ++ ['"'], true⟩ (doubled v ++ '"' :: rest) := by
        simp [readFrom]
      simpa using hpair.trans ih
    · rw [if_neg hc]
      simpa using (readFrom_plain hc).trans ih

theorem readFrom_cell (hrest : rest.head? ≠ some '"') :
    readFrom d false ⟨rows, row, [], false⟩ (csvTextCell v ++ rest) =
      readFrom d false ⟨rows, row, safe v, false⟩ rest := by
  have hopen : readFrom d false ⟨rows, row, [], false⟩ (csvTextCell v ++ rest) =
      readFrom d false ⟨rows, row, [], true⟩ (doubled (safe v) ++ '"' :: rest) := by
    simp [csvTextCell, readFrom]
  rw [hopen, readFrom_doubled hrest, List.nil_append]

theorem readFrom_comma : readFrom ',' false ⟨rows, row, cell, false⟩ (',' :: rest) =
    readFrom ',' false ⟨rows, row ++ [cell], [], false⟩ rest := by
  simp [readFrom]

/-- A row up to its last cell. -/
theorem readFrom_row (rows : List (List Text)) (row : List Text) {cells : List Text} (rest : Text)
    (hne : cells ≠ []) (hrest : rest.head? ≠ some '"') :
    ∃ row' cell', row' ++ [cell'] = row ++ cells.map safe ∧
      readFrom ',' false ⟨rows, row, [], false⟩
        ([','].intercalate (cells.map csvTextCell) ++ rest) =
          readFrom ',' false ⟨rows, row', cell', false⟩ rest := by
  induction cells generalizing row with
  | nil => exact absurd rfl hne
  | cons v cells ih =>
    cases cells with
    | nil =>
      refine ⟨row, safe v, rfl, ?_⟩
      simpa using readFrom_cell hrest
    | cons u cells =>
      obtain ⟨row', cell', hend, hread⟩ := ih (row ++ [safe v]) (by simp)
      refine ⟨row', cell', by simpa using hend, ?_⟩
      have hsplit : [','].intercalate ((v :: u :: cells).map csvTextCell) ++ rest =
          csvTextCell v ++ ',' :: ([','].intercalate ((u :: cells).map csvTextCell) ++ rest) := by
        simp [List.intercalate_cons_cons]
      rw [hsplit, readFrom_cell (by simp), readFrom_comma, hread]

end Row

/-! ## The rows are read back -/

section Table
variable {rows : List (List Text)} {row : List Text} {cell rest : Text}
  {table : List (List Text)}

theorem trim_apostrophe (v : Text) : trim ('\'' :: v) ≠ [] := by
  have hplain : isBlank '\'' = false := by decide
  simp [trim, hplain]

/-- The apostrophe leaves no row blank. -/
theorem hasText_safe (h : hasText row = true) : hasText (row.map safe) = true := by
  simp only [hasText, List.any_eq_true, decide_eq_true_eq, List.mem_map,
    exists_exists_and_eq_and] at h ⊢
  obtain ⟨v, hv, htext⟩ := h
  refine ⟨v, hv, ?_⟩
  unfold safe
  split
  · exact trim_apostrophe v
  · exact htext

theorem readFrom_newline (htext : hasText (row ++ [cell]) = true)
    (hlen : rows.length + 1 ≤ MAX_IMPORT_ROWS + 1) :
    readFrom ',' false ⟨rows, row, cell, false⟩ ('\n' :: rest) =
      readFrom ',' false ⟨rows ++ [row ++ [cell]], [], [], false⟩ rest := by
  have hroom : ¬ MAX_IMPORT_ROWS < rows.length := by omega
  simp [readFrom, htext, hroom]

theorem csvText_cons_cons (row next : List Text) (table : List (List Text)) :
    csvText (row :: next :: table) =
      [','].intercalate (row.map csvTextCell) ++ '\n' :: csvText (next :: table) := by
  simp [csvText, List.intercalate_cons_cons]

/-- With commas for delimiters every table that fits is read back. -/
theorem readFrom_csvText (rows table : List (List Text))
    (htable : ∀ row ∈ table, row ≠ [] ∧ hasText row = true)
    (hlen : rows.length + table.length ≤ MAX_IMPORT_ROWS + 1) :
    (readFrom ',' false ⟨rows, [], [], false⟩ (csvText table) >>= finished) =
      .ok (rows ++ table.map (·.map safe)) := by
  induction table generalizing rows with
  | nil =>
    have hblank : hasText [[]] = false := by decide
    simp [csvText, readFrom, finished, hblank, bind, Except.bind]
  | cons row table ih =>
    obtain ⟨hne, htext⟩ := htable row List.mem_cons_self
    have hsafe := hasText_safe htext
    cases table with
    | nil =>
      obtain ⟨row', cell', hend, hread⟩ := readFrom_row rows [] [] hne (by simp)
      have htextRow : csvText [row] = [','].intercalate (row.map csvTextCell) ++ [] := by
        simp [csvText]
      rw [List.nil_append] at hend
      rw [htextRow, hread]
      simp [readFrom, finished, hend, hsafe, bind, Except.bind]
    | cons next table =>
      obtain ⟨row', cell', hend, hread⟩ :=
        readFrom_row rows [] ('\n' :: csvText (next :: table)) hne (by simp)
      rw [List.nil_append] at hend
      rw [csvText_cons_cons, hread, readFrom_newline (hend ▸ hsafe) (by simp at hlen ⊢; omega),
        hend, ih _ (fun r hr => htable r (List.mem_cons_of_mem _ hr)) (by simp at hlen ⊢; omega)]
      simp

end Table

/-! ## The delimiter -/

/-- The first cell has a line break, and before it a semicolon and no comma. -/
def misleads (table : List (List Text)) : Bool :=
  (table.head?.bind List.head?).any fun cell => cell.contains '\n' &&
    (beforeBreak cell).contains ';' && !(beforeBreak cell).contains ','

section Delimiter
variable {c : Char} {text v rest : Text} {row : List Text} {table : List (List Text)}

theorem beforeBreak_cons (hc : c ≠ '\n') : beforeBreak (c :: v) = c :: beforeBreak v := by
  simp [beforeBreak, hc]

theorem beforeBreak_append (h : '\n' ∉ v) : beforeBreak (v ++ rest) = v ++ beforeBreak rest :=
  List.takeWhile_append_of_pos fun _ hc => decide_eq_true (ne_of_mem_of_not_mem hc h)

theorem beforeBreak_append_of_mem (h : '\n' ∈ v) : beforeBreak (v ++ rest) = beforeBreak v := by
  induction v with
  | nil => cases h
  | cons c v ih =>
    by_cases hc : c = '\n'
    · simp [beforeBreak, hc]
    · rw [List.cons_append, beforeBreak_cons hc, beforeBreak_cons hc,
        ih ((List.mem_cons.mp h).resolve_left (Ne.symm hc))]

theorem mem_firstLine (hc : c ≠ '\r') (text : Text) :
    c ∈ firstLine text ↔ c ∈ beforeBreak text := by
  unfold firstLine
  generalize beforeBreak text = line
  dsimp only
  split
  · rename_i h
    simp only [Bool.and_eq_true, decide_eq_true_eq] at h
    obtain ⟨front, rfl⟩ := List.getLast?_eq_some_iff.mp h.2
    simp [hc]
  · rfl

theorem mem_doubled : c ∈ doubled v ↔ c ∈ v := by
  simp only [doubled, List.mem_flatMap]
  grind

theorem mem_beforeBreak_doubled : c ∈ beforeBreak (doubled v) ↔ c ∈ beforeBreak v := by
  induction v with
  | nil => rfl
  | cons b v ih =>
    have hcons : doubled (b :: v) = (if b = '"' then ['"', '"'] else [b]) ++ doubled v := rfl
    rw [hcons]
    by_cases hbreak : b = '\n'
    · simp [hbreak, beforeBreak]
    · rw [beforeBreak_append (by split <;> simp [Ne.symm hbreak]), beforeBreak_cons hbreak]
      split <;> simp_all

/-- The part of a written cell before its first line break. -/
theorem mem_beforeBreak_csvTextCell (hc : c ≠ '"' ∧ c ≠ '\'') (hbreak : '\n' ∈ v)
    (rest : Text) : c ∈ beforeBreak (csvTextCell v ++ rest) ↔ c ∈ beforeBreak v := by
  have hsafe : '\n' ∈ safe v := by
    unfold safe
    split <;> simp [hbreak]
  have hsplit : csvTextCell v ++ rest = '"' :: (doubled (safe v) ++ ('"' :: rest)) := by
    simp [csvTextCell]
  rw [hsplit, beforeBreak_cons (by decide), beforeBreak_append_of_mem (mem_doubled.mpr hsafe),
    List.mem_cons, mem_beforeBreak_doubled]
  unfold safe
  split
  · rw [beforeBreak_cons (by decide), List.mem_cons]
    simp [hc]
  · simp [hc]

/-- A cell without a line break is followed by a comma on its line. -/
theorem comma_mem_firstLine (h : '\n' ∉ v) : ',' ∈ beforeBreak (csvTextCell v ++ ',' :: rest) := by
  have hnone : '\n' ∉ csvTextCell v := by
    have hsafe : '\n' ∉ safe v := by
      unfold safe
      split <;> simp [h]
    simp [csvTextCell, mem_doubled, hsafe]
  rw [beforeBreak_append hnone, beforeBreak_cons (by decide)]
  simp

theorem exists_two (h : 2 ≤ row.length) : ∃ v u cells, row = v :: u :: cells := by
  rcases row with _ | ⟨v, _ | ⟨u, cells⟩⟩
  · simp at h
  · simp at h
  · exact ⟨v, u, cells, rfl⟩

/-- Behind its first cell a table goes on with a comma and a quote. -/
theorem csvText_two (v u : Text) (cells : List Text) (table : List (List Text)) :
    ∃ rest, csvText ((v :: u :: cells) :: table) = csvTextCell v ++ ',' :: '"' :: rest := by
  cases table <;> cases cells <;> simp [csvText, csvTextCell, List.intercalate_cons_cons]

theorem guessDelimiter_csvText (hcolumns : ∀ row ∈ table, 2 ≤ row.length) :
    guessDelimiter (csvText table) = if misleads table then ';' else ',' := by
  have hguess (text : Text) : guessDelimiter text =
      if ';' ∈ beforeBreak text ∧ ',' ∉ beforeBreak text then ';' else ',' := by
    simp only [guessDelimiter, List.contains_eq_mem, mem_firstLine (c := ';') (by decide),
      mem_firstLine (c := ',') (by decide)]
    simp
  cases table with
  | nil => decide
  | cons row table =>
    have hrow := hcolumns row List.mem_cons_self
    obtain ⟨v, u, cells, rfl⟩ := exists_two hrow
    obtain ⟨rest, hrest⟩ := csvText_two v u cells table
    rw [hguess, hrest]
    by_cases hbreak : '\n' ∈ v
    · simp [misleads, mem_beforeBreak_csvTextCell, hbreak]
    · simp [misleads, comma_mem_firstLine hbreak, hbreak]

end Delimiter

/-! ## The round trip -/

/-- A semicolon reader takes the comma behind a cell into it and refuses the quote behind that. -/
theorem readFrom_semicolon (v rest : Text) :
    ∃ e, readFrom ';' false ⟨[], [], [], false⟩ (csvTextCell v ++ ',' :: '"' :: rest) =
      .error e := by
  rw [readFrom_cell (by simp)]
  simp [readFrom]

/-- What is written is read back, with the apostrophes of the cells that needed one, exactly when
the first line does not mislead the reader. -/
theorem csvCells_csvText_iff {table : List (List Text)} (hcolumns : ∀ row ∈ table, 2 ≤ row.length)
    (htext : ∀ row ∈ table, hasText row = true) (hrows : table.length ≤ MAX_IMPORT_ROWS + 1) :
    csvCells (csvText table) = .ok (table.map (·.map safe)) ↔ misleads table = false := by
  unfold csvCells
  rw [guessDelimiter_csvText hcolumns]
  cases hmisleads : misleads table with
  | false =>
    have hread := readFrom_csvText [] table
      (fun row hrow => ⟨List.ne_nil_of_length_pos (by have := hcolumns row hrow; omega),
        htext row hrow⟩) (by simpa using hrows)
    simpa using hread
  | true =>
    cases table with
    | nil => cases hmisleads
    | cons row table =>
      obtain ⟨v, u, cells, rfl⟩ := exists_two (hcolumns row List.mem_cons_self)
      obtain ⟨rest, hrest⟩ := csvText_two v u cells table
      obtain ⟨e, he⟩ := readFrom_semicolon v rest
      simp [hrest, he, bind, Except.bind]

/-- A header and a row with commas, semicolons, quotes, tabs, line breaks and a formula. -/
theorem csvCells_csvText_quoted :
    let table := [["a,b;c\nd".toList, "e\"\r\n".toList], ["=1+1".toList, "\t;".toList]]
    csvCells (csvText table) =
      .ok [["a,b;c\nd".toList, "e\"\r\n".toList], ["'=1+1".toList, "'\t;".toList]] :=
  (csvCells_csvText_iff (by decide) (by decide) (by decide)).mpr (by decide)

/-- A header with a semicolon and a line break in its first cell. -/
def misleadingTable : List (List Text) := [["a;b\nc".toList, "d".toList]]

/-- It is refused. -/
theorem csvCells_of_misleadingTable : (∀ row ∈ misleadingTable, 2 ≤ row.length) ∧
    (∀ row ∈ misleadingTable, hasText row = true) ∧
    misleadingTable.length ≤ MAX_IMPORT_ROWS + 1 ∧
    csvCells (csvText misleadingTable) = .error "ساختار نقل‌قول CSV معتبر نیست." ∧
    csvCells (csvText misleadingTable) ≠ .ok (misleadingTable.map (·.map safe)) := by
  decide

end Csv

end Pwos
