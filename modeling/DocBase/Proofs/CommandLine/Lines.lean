import DocBase.CommandLine
import DocBase.Proofs.Path
import DocBase.Proofs.Sql.Trimming

namespace DocBase

namespace Text

theorem joins_return (cluster : List BreakClass) :
    BreakClass.joins cluster (BreakClass.ofChar '\r') = false := by
  have hclass : BreakClass.ofChar '\r' = .carriageReturn := by decide
  rw [hclass]
  cases cluster with
  | nil => rfl
  | cons last before => simp [BreakClass.joins, BreakClass.isolates]

theorem cut_append_return (cluster : List BreakClass) (cs : List Char) :
    cut cluster (cs ++ ['\r']) = ((cut cluster cs).1, (cut cluster cs).2 ++ [['\r']]) := by
  induction cs generalizing cluster with
  | nil =>
    rw [List.nil_append, cut]
    simp [joins_return, cut]
  | cons c cs ih =>
    rw [List.cons_append, cut, cut, ih, ih]
    split <;> rfl

theorem foldlM_type?_of_not_mem {pieces : List (List Char)} (h : [backspace] ∉ pieces)
    (t : Typed) : ∃ t', pieces.foldlM Typed.type? t = some t' ∧
      t'.text.reverse = t.text.reverse ++ pieces.flatten := by
  induction pieces generalizing t with
  | nil => exact ⟨t, rfl, by simp⟩
  | cons piece pieces ih =>
    rw [List.mem_cons, not_or] at h
    obtain ⟨t', ht, htext⟩ := ih h.2 (t.enter piece)
    refine ⟨t', ?_, ?_⟩
    · rw [List.foldlM_cons, Typed.type?, if_neg (Ne.symm h.1)]
      exact ht
    · rw [htext]
      simp [Typed.enter]

theorem applyBackspaces?_of_not_mem {cs : List Char} (h : backspace ∉ cs) :
    applyBackspaces? cs = some cs := by
  have hpieces : [backspace] ∉ clusters cs := by
    intro hm
    apply h
    rw [← clusters_flatten cs]
    exact List.mem_flatten.2 ⟨_, hm, List.mem_singleton_self _⟩
  obtain ⟨t, ht, htext⟩ := foldlM_type?_of_not_mem hpieces .nothing
  rw [applyBackspaces?, ht, Option.map_some, htext, clusters_flatten]
  rfl

theorem applyBackspaces?_append_return (cs : List Char) :
    applyBackspaces? (cs ++ ['\r']) = (applyBackspaces? cs).map (· ++ ['\r']) := by
  have hc : clusters (cs ++ ['\r']) = clusters cs ++ [['\r']] := by
    rw [clusters, cut_append_return, clusters]
  have hlast (t : Typed) : [['\r']].foldlM Typed.type? t = some (t.enter ['\r']) := by
    rw [List.foldlM_cons, Typed.type?, if_neg (by decide)]
    rfl
  rw [applyBackspaces?, applyBackspaces?, hc, List.foldlM_append]
  cases (clusters cs).foldlM Typed.type? .nothing with
  | none => rfl
  | some t =>
    change ([['\r']].foldlM Typed.type? t).map _ = _
    rw [hlast]
    simp [Typed.enter]

theorem trim_append_of_isBlank {c : Char} (hc : isBlank c) (cs : List Char) :
    trim (cs ++ [c]) = trim cs := by
  rw [trim, trim, List.dropWhile_append]
  split
  · next he =>
    rw [List.isEmpty_iff.1 he]
    simp [hc]
  · rw [List.reverse_append, List.reverse_singleton, List.singleton_append,
      List.dropWhile_cons_of_pos hc]

end Text

namespace CommandLine

theorem split_unlines {lines : List String} (h : ∀ line ∈ lines, '\n' ∉ line.toList) :
    Text.split '\n' (unlines lines).toList = lines.map String.toList ++ [[]] := by
  rw [unlines, String.toList_ofList]
  induction lines with
  | nil => rfl
  | cons line lines ih =>
    rw [List.flatMap_cons, List.append_assoc, List.singleton_append, Text.split_append_cons,
      Text.split_of_not_mem (h line (.head _)), ih fun other hm => h other (.tail _ hm)]
    rfl

namespace Shell

/-- What was typed as a line, as the backspaces in it leave it, if they leave one. -/
def typed? (line : String) : Option String :=
  (Text.applyBackspaces? line.toList).map String.ofList

def typed (line : String) : String := (typed? line).getD ""

theorem typed?_of_not_mem {line : String} (h : Text.backspace ∉ line.toList) :
    typed? line = some line := by
  rw [typed?, Text.applyBackspaces?_of_not_mem h, Option.map_some, String.ofList_toList]

theorem typed_of_not_mem {line : String} (h : Text.backspace ∉ line.toList) :
    typed line = line := by
  rw [typed, typed?_of_not_mem h, Option.getD_some]

def withoutReturn (cs : List Char) : List Char :=
  if cs.getLast? = some '\r' then cs.dropLast else cs

def entered? (line : String) : Option String :=
  (Text.applyBackspaces? (withoutReturn line.toList)).map String.ofList

def trimmed (text : String) : String := .ofList (Text.trim text.toList)

theorem alike_tokens_trimmed (text : String) :
    Sql.AllAlike (Sql.tokens (trimmed text)) (Sql.tokens text) := by
  have h := Sql.alike_tokens_trim text.toList
  rwa [String.ofList_toList] at h

theorem linesOf_unlines {lines : List String} (h : ∀ line ∈ lines, '\n' ∉ line.toList) :
    linesOf (unlines lines) = lines.map entered? := by
  rw [linesOf, rawLinesOf, split_unlines h]
  simp [entered?, withoutReturn, Function.comp_def]

/-- Of a line that can be read, the shell gets all but a carriage return, and trims that. -/
theorem exists_entered? {line : String} (h : (typed? line).isSome) :
    ∃ text, entered? line = some text ∧ trimmed text = trimmed (typed line) := by
  obtain ⟨text, ht⟩ := Option.isSome_iff_exists.1 h
  rw [typed, ht, Option.getD_some, entered?, withoutReturn]
  split
  · next hr =>
    obtain ⟨cs, hcs⟩ := List.getLast?_eq_some_iff.1 hr
    rw [typed?, hcs, Text.applyBackspaces?_append_return, Option.map_map] at ht
    obtain ⟨found, hfound, rfl⟩ := Option.map_eq_some_iff.1 ht
    rw [hcs, List.dropLast_concat, hfound]
    refine ⟨_, rfl, ?_⟩
    rw [trimmed, trimmed, String.toList_ofList, Function.comp_apply, String.toList_ofList,
      Text.trim_append_of_isBlank (by decide)]
  · exact ⟨text, ht, rfl⟩

/-- What a shell gets of a line as it was typed. -/
def Gets (line text : String) : Prop := trimmed text = trimmed (typed line)

theorem exists_texts {lines : List String} (h : ∀ line ∈ lines, (typed? line).isSome) :
    ∃ texts : List String, lines.map entered? = texts.map some ∧
      List.Forall₂ Gets lines texts := by
  induction lines with
  | nil => exact ⟨[], rfl, .nil⟩
  | cons line lines ih =>
    obtain ⟨text, ht, hgets⟩ := exists_entered? (h line (.head _))
    obtain ⟨texts, hts, hall⟩ := ih fun other hm => h other (.tail _ hm)
    exact ⟨text :: texts, by rw [List.map_cons, ht, hts, List.map_cons], .cons hgets hall⟩

/-- A line that is run as a statement: trimmed, it is neither empty nor a command of the shell. -/
def IsStatement (line : String) : Prop :=
  trimmed line ≠ "" ∧
    ∀ name ∈ ["exit", "quit", "help", "info"], Text.equalsIgnoringCase (trimmed line) name = false

instance (line : String) : Decidable (IsStatement line) := inferInstanceAs (Decidable (_ ∧ _))

theorem IsStatement.ne_empty {line : String} (h : IsStatement line) : line ≠ "" := by
  rintro rfl
  exact h.1 rfl

theorem IsStatement.of_gets {line text : String} (h : IsStatement (typed line))
    (hg : Gets line text) : IsStatement text := by
  rw [IsStatement, hg]
  exact h

section
variable {lines texts : List String} (h : List.Forall₂ Gets lines texts)
include h

theorem isEmpty_of_gets : lines.isEmpty = texts.isEmpty := by
  cases h <;> rfl

theorem ne_empty_of_gets (hl : ∀ line ∈ lines, IsStatement (typed line)) :
    ∀ text ∈ texts, text ≠ "" := by
  induction h with
  | nil => exact List.forall_mem_nil _
  | cons hg _ ih =>
    rw [List.forall_mem_cons] at hl ⊢
    exact ⟨(hl.1.of_gets hg).ne_empty, ih hl.2⟩

end

theorem answer_of_isStatement {line : String} (h : IsStatement line) (s : Shell) :
    s.answer line =
      let (result, warnings, database) := s.database.query (trimmed line)
      replyTo ⟨database, s.history.add line⟩ warnings result := by
  obtain ⟨hne, hcommand⟩ := h
  have hempty : ¬ (trimmed line).isEmpty = true := mt String.isEmpty_iff.1 hne
  have hexit : Text.equalsIgnoringCase (trimmed line) "exit" = false := hcommand _ (by simp)
  have hquit : Text.equalsIgnoringCase (trimmed line) "quit" = false := hcommand _ (by simp)
  have hhelp : Text.equalsIgnoringCase (trimmed line) "help" = false := hcommand _ (by simp)
  have hinfo : Text.equalsIgnoringCase (trimmed line) "info" = false := hcommand _ (by simp)
  change (if (trimmed line).isEmpty then _ else if _ || _ then _ else _) = _
  rw [if_neg hempty]
  simp only [trimmed] at hexit hquit hhelp hinfo
  simp only [hexit, hquit, hhelp, hinfo, Bool.or_self, Bool.false_eq_true, if_false]
  rfl

theorem run_cons_of_goesOn {s : Shell} {line : String} (h : (s.answer line).next = .goesOn)
    (lines : List (Option String)) :
    let rest := (s.answer line).shell.run lines
    (s.run (some line :: lines)).output = (s.answer line).output ++ rest.output ∧
      (s.run (some line :: lines)).shell = rest.shell ∧
      (s.run (some line :: lines)).panicked = rest.panicked := by
  intro rest
  rw [run, h]
  exact ⟨rfl, rfl, rfl⟩

theorem run_cons_of_panics {s : Shell} {line : String} (h : (s.answer line).next = .panics)
    (lines : List (Option String)) :
    (s.run (some line :: lines)).shell = (s.answer line).shell ∧
      (s.run (some line :: lines)).panicked = true := by
  rw [run, h]
  exact ⟨rfl, rfl⟩

end Shell

end CommandLine

end DocBase
