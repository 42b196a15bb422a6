import DocBase.Proofs.Numeral
import DocBase.ResultSet
import Mathlib.Algebra.GroupWithZero.Nat
import Mathlib.Data.List.DropRight
import Mathlib.Data.List.Forall2

namespace DocBase

section
variable {d : Decimal} {c : Char}

theorem Decimal.mem_positional (h : c ∈ d.positional) : c.isDigit ∨ c = '.' := by
  have hdigits : ∀ e ∈ d.digitChars, e.isDigit := fun e he => isDigit_of_mem_toDigits he
  simp only [positional] at h
  split at h
  · rcases List.mem_append.1 h with h | h
    · exact .inl (hdigits c h)
    · rw [List.eq_of_mem_replicate h]
      exact .inl rfl
  · split at h
    · rcases List.mem_append.1 h with h | h
      · exact .inl (hdigits c (List.mem_of_mem_take h))
      · rcases List.mem_cons.1 h with rfl | h
        · exact .inr rfl
        · exact .inl (hdigits c (List.mem_of_mem_drop h))
    · simp only [List.mem_cons, List.mem_append] at h
      rcases h with rfl | rfl | h | h
      · exact .inl rfl
      · exact .inr rfl
      · rw [List.eq_of_mem_replicate h]
        exact .inl rfl
      · exact .inl (hdigits c h)

theorem Binary64.not_blank_of_mem_positional {f : Binary64} (h : c ∈ f.positional) : c ≠ ' ' := by
  cases f with
  | nan =>
    rintro rfl
    exact absurd h (by decide)
  | infinite negative =>
    rintro rfl
    cases negative <;> exact absurd h (by decide)
  | finite negative rank =>
    rintro rfl
    rcases List.mem_append.1 h with h | h
    · cases negative <;> exact absurd h (by decide)
    · exact absurd (Decimal.mem_positional h) (by decide)

end

/-- No value shows with a blank at its end; blanks inside a text are in front of its quote. -/
theorem Value.getLast?_display (v : Value) : v.display.toList.getLast? ≠ some ' ' := by
  cases v with
  | null => decide
  | boolean b => cases b <;> decide
  | integer i =>
    intro h
    have hm := List.mem_of_getLast? h
    rw [display, toList_toString_int] at hm
    rcases List.mem_append.1 hm with hm | hm
    · split at hm <;> exact absurd hm (by decide)
    · exact absurd (isDigit_of_mem_toDigits hm) (by decide)
  | float f =>
    intro h
    rw [display, String.toList_ofList] at h
    exact Binary64.not_blank_of_mem_positional (List.mem_of_getLast? h) rfl
  | text s =>
    have hquote : (text s).display.toList = '"' :: s.toList ++ ['"'] := by simp [display]
    rw [hquote, List.getLast?_concat]
    decide

namespace ResultSet

structure Longest (texts : List String) (length : Nat) : Prop where
  le : ∀ text ∈ texts, text.length ≤ length
  reached : ∃ text ∈ texts, text.length = length

/-- The texts of a column: its name, and what it shows in each row. -/
def columnTexts (rows : List Row) (column : String) : List String :=
  column :: rows.map (cell · column)

/-- Where column `i` starts in a line: behind a bar and a blank, and behind the columns before it
with the three characters that go with each of them. -/
def columnStart (widths : List Nat) (i : Nat) : Nat := 2 + ((widths.take i).map (· + 3)).sum

def lineLength (widths : List Nat) : Nat := 1 + (widths.map (· + 3)).sum

/-- A text stands whole at a place in a line, with blanks behind it up to a width. -/
structure StandsAt (line : List Char) (start width : Nat) (text : String) : Prop where
  whole : text.length ≤ width
  padded : (line.drop start).take width = text.toList ++ .replicate (width - text.length) ' '

/-- What is read at a place, up to the blanks behind it. -/
def textAt (shown : List Char) (start width : Nat) : List Char :=
  ((shown.drop start).take width).rdropWhile (· = ' ')

theorem longest_foldl (first : String) (texts : List String) : Longest (first :: texts)
    (texts.foldl (fun length text => max length text.length) first.length) := by
  induction texts generalizing first with
  | nil => exact ⟨by simp, first, .head _, rfl⟩
  | cons text texts ih =>
    rw [List.foldl_cons]
    -- The longer one of the first two takes the place of both.
    rcases Nat.le_total first.length text.length with h | h
    · rw [Nat.max_eq_right h]
      obtain ⟨hle, t, ht, hreached⟩ := ih text
      refine ⟨List.forall_mem_cons.2 ⟨Nat.le_trans h (hle text (.head _)), hle⟩, t, ?_, hreached⟩
      exact .tail _ ht
    · rw [Nat.max_eq_left h]
      obtain ⟨hle, t, ht, hreached⟩ := ih first
      obtain ⟨hfirst, htexts⟩ := List.forall_mem_cons.1 hle
      refine ⟨List.forall_mem_cons.2
        ⟨hfirst, List.forall_mem_cons.2 ⟨Nat.le_trans h hfirst, htexts⟩⟩, t, ?_, hreached⟩
      rcases List.mem_cons.1 ht with rfl | ht
      · exact .head _
      · exact .tail _ (.tail _ ht)

section
variable {columns : List String} {rows : List Row} {column : String} {i : Nat}

theorem columnWidth_eq (h : columns[i]? = some column) :
    columnWidth column (rows.map fun row => columns.map (cell row)) i =
      (rows.map (cell · column)).foldl (fun length text => max length text.length)
        column.length := by
  have hcell (row : Row) : (columns.map (cell row))[i]?.getD "" = cell row column := by
    rw [List.getElem?_map, h]
    rfl
  rw [columnWidth, List.foldl_map, List.foldl_map]
  simp only [hcell]

theorem longest_widthsOf (columns : List String) (rows : List Row) :
    List.Forall₂ (fun column => Longest (columnTexts rows column)) columns
      (widthsOf columns rows) := by
  rw [List.forall₂_iff_get]
  refine ⟨(List.length_mapIdx).symm, ?_⟩
  intro i hi hw
  have hcolumn : columns[i]? = some columns[i] := List.getElem?_eq_getElem hi
  simp only [List.get_eq_getElem, widthsOf, List.getElem_mapIdx, columnWidth_eq hcolumn]
  exact longest_foldl _ _

end

section
variable {widths : List Nat} {texts : List String} {text : String} {i width : Nat}

theorem length_pad (h : text.length ≤ width) : (pad width text).length = width := by
  rw [pad, List.length_append, List.length_replicate, String.length_toList]
  omega

theorem columnStart_zero (widths : List Nat) : columnStart widths 0 = 2 := rfl

theorem columnStart_succ (width : Nat) (widths : List Nat) (i : Nat) :
    columnStart (width :: widths) (i + 1) = width + 3 + columnStart widths i := by
  rw [columnStart, columnStart, List.take_succ_cons, List.map_cons, List.sum_cons]
  omega

theorem lineLength_cons (width : Nat) (widths : List Nat) :
    lineLength (width :: widths) = width + 3 + lineLength widths := by
  rw [lineLength, lineLength, List.map_cons, List.sum_cons]
  omega

theorem line_cons (width : Nat) (widths : List Nat) (text : String) (texts : List String) :
    line (width :: widths) (text :: texts) =
      '|' :: ' ' :: pad width text ++ ' ' :: line widths texts := by
  simp [line]

theorem separator_cons (width : Nat) (widths : List Nat) :
    separator (width :: widths) = '|' :: .replicate (width + 2) '-' ++ separator widths := by
  simp [separator]

theorem length_separator (widths : List Nat) : (separator widths).length = lineLength widths := by
  induction widths with
  | nil => rfl
  | cons width widths ih =>
    rw [separator_cons, lineLength_cons, List.length_append, ih, List.length_cons,
      List.length_replicate]

theorem columnStart_add_le (h : widths[i]? = some width) :
    columnStart widths i + width ≤ lineLength widths := by
  induction widths generalizing i with
  | nil => cases h
  | cons first widths ih =>
    rw [lineLength_cons]
    cases i with
    | zero =>
      cases h
      rw [columnStart_zero, lineLength]
      omega
    | succ i =>
      have := ih h
      rw [columnStart_succ]
      omega

/-- Texts that are as wide as their columns or less. -/
abbrev Fit (texts : List String) (widths : List Nat) : Prop :=
  List.Forall₂ (fun (text : String) (width : Nat) => text.length ≤ width) texts widths

theorem Fit.length_line (h : Fit texts widths) :
    (line widths texts).length = lineLength widths := by
  induction h with
  | nil => rfl
  | cons hfits _ ih =>
    rw [line_cons, lineLength_cons, List.length_append, List.length_cons, List.length_cons,
      List.length_cons, length_pad hfits, ih]
    omega

theorem Fit.standsAt (h : Fit texts widths) (ht : texts[i]? = some text)
    (hw : widths[i]? = some width) :
    StandsAt (line widths texts) (columnStart widths i) width text := by
  induction h generalizing i with
  | nil => cases ht
  | @cons first firstWidth texts widths hfits _ ih =>
    have hlength := length_pad hfits
    cases i with
    | zero =>
      cases ht
      cases hw
      refine ⟨hfits, ?_⟩
      rw [line_cons, columnStart_zero]
      exact List.take_left' hlength
    | succ i =>
      obtain ⟨hwhole, hpadded⟩ := ih ht hw
      refine ⟨hwhole, ?_⟩
      have hskip : (line (firstWidth :: widths) (first :: texts)).drop (firstWidth + 3) =
          line widths texts := by
        rw [line_cons, List.append_cons]
        exact List.drop_left' (by simp [hlength])
      rw [columnStart_succ, ← List.drop_drop, hskip, hpadded]

end

section
variable {pieces : List (List Char)} {piece rest : List Char} {length start width r : Nat}

/-- Of pieces of one length, each with a line break behind it, each one starts at a multiple of that
length and one more. -/
theorem take_drop_pieces (h : ∀ piece ∈ pieces, piece.length = length)
    (hr : pieces[r]? = some piece) (hfits : start + width ≤ length) :
    ((pieces.flatMap (· ++ ['\n']) ++ rest).drop (r * (length + 1) + start)).take width =
      (piece.drop start).take width := by
  induction pieces generalizing r with
  | nil => cases hr
  | cons first pieces ih =>
    obtain ⟨hfirst, hpieces⟩ := List.forall_mem_cons.1 h
    rw [List.flatMap_cons, List.append_assoc]
    cases r with
    | zero =>
      cases hr
      rw [Nat.zero_mul, Nat.zero_add, List.append_assoc,
        List.drop_append_of_le_length (by omega), List.take_append_of_le_length]
      rw [List.length_drop]
      omega
    | succ r =>
      have hlength : (first ++ ['\n']).length = length + 1 := by
        rw [List.length_append, hfirst, List.length_singleton]
      rw [Nat.succ_mul, Nat.add_comm (r * (length + 1)), Nat.add_assoc, ← List.drop_drop,
        List.drop_left' hlength]
      exact ih hpieces hr

theorem rdropWhile_append_replicate (cs : List Char) (n : Nat) :
    (cs ++ .replicate n ' ').rdropWhile (· = ' ') = cs.rdropWhile (· = ' ') := by
  induction n with
  | zero => rw [List.replicate_zero, List.append_nil]
  | succ n ih =>
    rw [List.replicate_succ', ← List.append_assoc, List.rdropWhile_concat_pos _ _ _ rfl, ih]

theorem StandsAt.textAt_eq {line : List Char} {text : String} (h : StandsAt line start width text)
    (hlast : text.toList.getLast? ≠ some ' ') : textAt line start width = text.toList := by
  rw [textAt, h.padded, rdropWhile_append_replicate, List.rdropWhile_eq_self_iff]
  intro hne hblank
  rw [List.getLast?_eq_some_getLast hne] at hlast
  exact hlast (congrArg some (of_decide_eq_true hblank))

end

theorem getLast?_cell (row : Row) (column : String) :
    (cell row column).toList.getLast? ≠ some ' ' := by
  rw [cell]
  split
  · next value _ => exact value.getLast?_display
  · decide

theorem cell_eq (row : Row) (column : String) :
    cell row column = (row.get? column).elim "" Value.display := by
  rw [cell]
  cases row.get? column <;> rfl

section
variable (columns : List String) (rows : List Row)

def header : List Char := line (widthsOf columns rows) columns

def rowLine (row : Row) : List Char := line (widthsOf columns rows) (columns.map (cell row))

def linesOf : List (List Char) :=
  header columns rows :: separator (widthsOf columns rows) :: rows.map (rowLine columns rows)

theorem fit_header : Fit columns (widthsOf columns rows) := by
  apply (longest_widthsOf columns rows).imp
  intro column width h
  exact h.le column (.head _)

theorem fit_row {row : Row} (h : row ∈ rows) :
    Fit (columns.map (cell row)) (widthsOf columns rows) := by
  apply List.forall₂_map_left_iff.2
  apply (longest_widthsOf columns rows).imp
  intro column width hlongest
  exact hlongest.le _ (.tail _ (List.mem_map.2 ⟨row, h, rfl⟩))

theorem length_of_mem_linesOf {piece : List Char} (h : piece ∈ linesOf columns rows) :
    piece.length = lineLength (widthsOf columns rows) := by
  rcases List.mem_cons.1 h with rfl | h
  · exact (fit_header columns rows).length_line
  · rcases List.mem_cons.1 h with rfl | h
    · exact length_separator _
    · obtain ⟨row, hrow, rfl⟩ := List.mem_map.1 h
      exact (fit_row columns rows hrow).length_line

theorem display_rows (hne : columns ≠ []) :
    (ResultSet.rows columns rows).display.toList =
      (linesOf columns rows).flatMap (· ++ ['\n']) ++
        ('(' :: (counted rows.length "row").toList ++ [')']) := by
  obtain ⟨column, columns, rfl⟩ := List.exists_cons_of_ne_nil hne
  change (table (column :: columns) rows).toList = _
  rw [table, String.toList_ofList, List.map_map]
  rfl

theorem counted_rows (n : Nat) : '(' :: (counted n "row").toList ++ [')'] =
    '(' :: (toString n).toList ++ (if n = 1 then " row)" else " rows)").toList := by
  rw [counted]
  split <;> simp [String.toList_append]

/-- A table is its heading, a separator and a line for each row, all as long as the columns need, and
the number of rows. In the heading and in every line a column starts at the same place and its text
stands there whole; so each cell is read back from its place in the table. -/
theorem table_read_by_position (hne : columns ≠ []) :
    let shown := (ResultSet.rows columns rows).display.toList
    let widths := widthsOf columns rows
    List.Forall₂ (fun column => Longest (columnTexts rows column)) columns widths ∧
    shown = (header columns rows :: separator widths :: rows.map (rowLine columns rows)).flatMap
        (· ++ ['\n']) ++
      '(' :: (toString rows.length).toList ++
        (if rows.length = 1 then " row)" else " rows)").toList ∧
    (∀ piece ∈ header columns rows :: separator widths :: rows.map (rowLine columns rows),
      piece.length = lineLength widths) ∧
    ∀ (i : Nat) (column : String) (width : Nat),
      columns[i]? = some column → widths[i]? = some width →
      StandsAt (header columns rows) (columnStart widths i) width column ∧
      ∀ (r : Nat) (row : Row), rows[r]? = some row →
        let text := (row.get? column).elim "" Value.display
        StandsAt (rowLine columns rows row) (columnStart widths i) width text ∧
        textAt shown ((r + 2) * (lineLength widths + 1) + columnStart widths i) width =
          text.toList := by
  intro shown widths
  have hshown : shown = (linesOf columns rows).flatMap (· ++ ['\n']) ++
      ('(' :: (counted rows.length "row").toList ++ [')']) := display_rows columns rows hne
  refine ⟨longest_widthsOf columns rows, ?_, fun _ => length_of_mem_linesOf columns rows, ?_⟩
  · rw [hshown, counted_rows]
    simp only [List.append_assoc, List.cons_append]
    rfl
  · intro i column width hcolumn hwidth
    refine ⟨(fit_header columns rows).standsAt hcolumn hwidth, ?_⟩
    intro r row hrow text
    have htext : cell row column = text := cell_eq row column
    have hcell : (columns.map (cell row))[i]? = some text := by
      rw [List.getElem?_map, hcolumn, ← htext]
      rfl
    have hstands : StandsAt (rowLine columns rows row) (columnStart widths i) width text :=
      (fit_row columns rows (List.mem_of_getElem? hrow)).standsAt hcell hwidth
    refine ⟨hstands, ?_⟩
    have hline : (linesOf columns rows)[r + 2]? = some (rowLine columns rows row) := by
      change (rows.map (rowLine columns rows))[r]? = _
      rw [List.getElem?_map, hrow]
      rfl
    have hlast : text.toList.getLast? ≠ some ' ' := htext ▸ getLast?_cell row column
    calc textAt shown ((r + 2) * (lineLength widths + 1) + columnStart widths i) width
        = textAt (rowLine columns rows row) (columnStart widths i) width := by
          rw [textAt, textAt, hshown, take_drop_pieces
            (fun piece h => length_of_mem_linesOf columns rows h) hline
            (columnStart_add_le hwidth)]
      _ = text.toList := hstands.textAt_eq hlast

end

/-- Line breaks, bars and quotes in cells move nothing, nor does a missing cell. -/
theorem table_read_by_position_of_odd_texts :
    let columns := ["ä|", "b", "b"]
    let rows : List Row := [.ofAssignments [("ä|", .text "x |\n\"")], .ofAssignments [("b", .null)]]
    let shown := (ResultSet.rows columns rows).display.toList
    columns ≠ [] ∧ widthsOf columns rows = [7, 4, 4] ∧
      textAt shown (2 * 26 + 2) 7 = "\"x |\n\"\"".toList ∧ textAt shown (2 * 26 + 12) 4 = [] ∧
      textAt shown (3 * 26 + 19) 4 = "NULL".toList := by
  intro columns rows shown
  have hwidths : widthsOf columns rows = [7, 4, 4] := by decide +kernel
  obtain ⟨-, -, -, hcells⟩ := table_read_by_position columns rows (by decide)
  rw [hwidths] at hcells
  have hfirst := ((hcells 0 _ 7 rfl rfl).2 0 _ rfl).2
  have habsent := ((hcells 1 _ 4 rfl rfl).2 0 _ rfl).2
  have hlast := ((hcells 2 _ 4 rfl rfl).2 1 _ rfl).2
  exact ⟨by decide, hwidths, hfirst.trans (by decide +kernel), habsent.trans (by decide +kernel),
    hlast.trans (by decide +kernel)⟩

end ResultSet

end DocBase
