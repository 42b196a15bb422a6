import DocBase.Proofs.Sql.ForeseenSentences
import Mathlib.Data.List.Nodup

namespace DocBase.Sql

open Grammar

namespace Parser

/-- A statement up to where its text has to end. -/
def terminated : Parser Statement := do
  let statement ← statementBody
  if ← skip (.sign .semicolon) then return statement else return statement

theorem statement_eq :
    statement = (do let s ← terminated; let _ ← expect .endOfText; return s) := by
  rw [statement, terminated, bind_assoc]
  congr 1
  funext s
  rw [bind_assoc]
  congr 1
  funext b
  cases b <;> rfl

theorem text_of_optional {ts : List Token} {s : Statement}
    (h : Sequence Sentence (fun s ts s' => Marked (.sign .semicolon) (Silent s) ts s' ∨
      Silent s ts s') ts s) : Text ts s := by
  obtain ⟨h, ⟨he, rfl, rfl⟩ | ⟨rfl, rfl⟩⟩ := h
  · exact .terminated h (spelled_one he)
  · rw [List.append_nil]
    exact .plain h

theorem foresees_terminated : Foresees terminated Text :=
  (foresees_statementBody.bind reads_statementBody fun s =>
    .optional (.sign .semicolon) (.pure s) s).mono text_of_optional

theorem terminated_sound : terminated.Sound Text := by
  intro ts rest s hl h
  have hs (s : Statement) := (Reads.optional (.sign .semicolon) (Reads.pure s) s).weaken
    (.sign .semicolon :: sentenceStops) (by simp)
  have hr := reads_statementBody.bind hs fun h hr =>
    clear_of_optional h (by simp) (hr.weaken (by simp))
  obtain ⟨used, hts, hu⟩ := hr.sound hl h
  exact ⟨used, hts, text_of_optional hu⟩

/-- Why the parser of statements fails, unless its error tells no token. -/
structure Refused (ts used rest : List Token) (e : ParseError) : Prop where
  split : ts = used ++ rest
  proper : ∀ t ∈ used, t.kind.Proper
  steady : statement.Steady used rest (.error e)
  tells : e.Tells rest
  completable : Completable Text used

theorem refused_of_statement {ts rest : List Token} {e : ParseError} (hl : ∀ t ∈ ts, t.Lexed)
    (h : statement ts = .error e rest) (he : ¬ e.Placeless) :
    ∃ used left, Refused ts used left e := by
  rw [statement_eq] at h
  cases foresees_terminated.foreseen ts with
  | @ok used left s hts hp hs =>
    subst hts
    rw [bind_of_ok (hs rfl)] at h
    obtain ⟨used', hu, htext⟩ := terminated_sound hl (hs rfl)
    obtain rfl := List.append_cancel_right hu
    -- A whole statement was read, so what is wrong is that the text does not end behind it.
    rcases expect_cases .endOfText left with ⟨t, us, rfl, ht⟩ | ⟨e', htells, hend⟩
    · rw [bind_of_ok (expect_cons .endOfText ht us)] at h
      cases h
    · rw [bind_of_error (hend left rfl)] at h
      cases h
      refine ⟨used, _, rfl, hp, fun rest' hr => ?_, htells, [], s, nofun, ?_⟩
      · rw [statement_eq, bind_of_ok (hs hr), bind_of_error (hend rest' hr)]
      · rwa [List.append_nil]
  | @refused used left e' hts hp hs htells hc =>
    rw [hts, bind_of_error (hs rfl)] at h
    cases h
    refine ⟨used, _, hts, hp, fun rest' hr => ?_, htells, hc hl⟩
    rw [statement_eq, bind_of_error (hs hr)]
  | invalid hs hplaceless =>
    rw [bind_of_error hs] at h
    cases h
    exact absurd hplaceless he

end Parser

/-- Some text that parses has tokens like these, but for their places. -/
def Parseable (ts : List Token) : Prop :=
  ∃ text s, AllAlike ts (words text) ∧ parse text = .ok s

theorem parseable_of_text {ts : List Token} {s : Statement} (hw : ∀ t ∈ ts, t.Writable)
    (h : Text ts s) : Parseable ts := by
  obtain ⟨text, ha⟩ := exists_words_alike hw
  exact ⟨text, s, ha, parse_of_derives (blind_text s ha h)⟩

theorem text_of_parseable {ts : List Token} (h : Parseable ts) : ∃ s, Text ts s := by
  obtain ⟨text, s, ha, hs⟩ := h
  exact ⟨s, blind_text s ha.symm (derives_of_parse hs)⟩

theorem refused_of_parse {text : String} {e : ParseError} (h : parse text = .error e)
    (he : ¬ e.Placeless) : ∃ used rest, Parser.Refused (tokens text) used rest e := by
  rw [parse] at h
  split at h
  · cases h
  · next hs =>
    cases h
    exact Parser.refused_of_statement (fun _ => lexed_of_mem_tokens) hs he

namespace Parser.Refused

variable {text : String} {used rest : List Token} {t : Token} {e : ParseError}

theorem completed (h : Refused (tokens text) used rest e) : ∃ more, Parseable (used ++ more) := by
  obtain ⟨more, s, hm, hs⟩ := h.completable
  refine ⟨more, parseable_of_text (List.forall_mem_append.2 ⟨?_, hm⟩) hs⟩
  intro t ht
  exact writable_of_mem_tokens (h.split ▸ List.mem_append_left rest ht) (h.proper t ht)

/-- An error that says the text ends too early comes behind its last word. -/
theorem eq_words (h : Refused (tokens text) used rest .endOfInput) : used = words text := by
  have hend : AtEnd rest := by
    have htells := h.tells
    cases htells
    assumption
  cases rest with
  | nil =>
    obtain ⟨last, he, hk⟩ := tokens_eq text
    have hm : last ∈ used := by
      have hsplit := h.split
      rw [List.append_nil, he] at hsplit
      exact hsplit ▸ List.mem_append_right _ (List.mem_singleton_self last)
    exact absurd hk (h.proper last hm).word
  | cons t us => exact (rest_eq_nil h.split (hend t rfl)).1

theorem not_parseable {ts : List Token} (h : Refused ts used (t :: rest) e) (more : List Token) :
    ¬ Parseable (used ++ t :: more) := by
  intro hp
  obtain ⟨s, hs⟩ := text_of_parseable hp
  let last : Token := ⟨.endOfText, "", .start⟩
  have hok := reads_statement.complete (.mk hs (rfl : last.kind = .endOfText)) (.none [])
  have hfail : statement (used ++ t :: (more ++ [last])) = .error e _ := h.steady rfl
  rw [List.append_nil, List.append_assoc, List.cons_append] at hok
  cases hok.symm.trans hfail

end Parser.Refused

theorem fault_of_parse {text : String} {e : ParseError} {t : Token} (h : parse text = .error e)
    (he : e = .unexpectedToken t ∨ ∃ expected, e = .expectedToken expected t) :
    ∃ used rest, Parser.Refused (tokens text) used (t :: rest) e ∧ t.kind ≠ .endOfText := by
  have hplace : ¬ e.Placeless := by
    rcases he with rfl | ⟨_, rfl⟩ <;> exact nofun
  obtain ⟨used, rest, hr⟩ := refused_of_parse h hplace
  rcases he with rfl | ⟨_, rfl⟩
  · have htells := hr.tells
    cases htells with
    | unexpectedToken us ht => exact ⟨used, us, hr, ht⟩
  · have htells := hr.tells
    cases htells with
    | expectedToken _ us ht => exact ⟨used, us, hr, ht⟩

/-- An error that names a token names one of the text. Some statement starts with the tokens before
it, and none does with these and the token itself. A text that ends too early is lacking some tokens
to be a statement. -/
theorem parse_fails_at_first_fault (text : String) :
    (∀ e t, parse text = .error e →
      (e = .unexpectedToken t ∨ ∃ expected, e = .expectedToken expected t) →
      t ∈ tokens text ∧ t.kind ≠ .endOfText ∧
        ∀ before after, tokens text = before ++ t :: after →
          (∃ more, Parseable (before ++ more)) ∧ ∀ more, ¬ Parseable (before ++ t :: more)) ∧
      (parse text = .error .endOfInput → ∃ more, more ≠ [] ∧ Parseable (words text ++ more)) := by
  constructor
  · intro e t h he
    obtain ⟨used, rest, hr, ht⟩ := fault_of_parse h he
    refine ⟨hr.split ▸ List.mem_append_right used (.head rest), ht, ?_⟩
    intro before after hsplit
    have hn := nodup_tokens text
    rw [hr.split] at hn
    obtain ⟨hnot, -⟩ := List.nodup_cons.1 (List.nodup_middle.1 hn)
    rw [List.mem_append, not_or] at hnot
    obtain ⟨rfl, -, -⟩ := (List.append_cons_inj_of_notMem hnot.1 hnot.2).1
      (hr.split.symm.trans hsplit)
    exact ⟨hr.completed, hr.not_parseable⟩
  · intro h
    obtain ⟨used, rest, hr⟩ := refused_of_parse h nofun
    obtain rfl : used = words text := hr.eq_words
    obtain ⟨more, hp⟩ := hr.completed
    refine ⟨more, ?_, hp⟩
    rintro rfl
    obtain ⟨s, hs⟩ := text_of_parseable hp
    rw [List.append_nil] at hs
    cases h.symm.trans (parse_of_derives hs)

theorem parse_fails_at_misspelled_word :
    (∃ before t after, tokens "SELECT a FORM t" = before ++ t :: after ∧ t.literal = "FORM" ∧
      parse "SELECT a FORM t" = .error (.expectedToken (.keyword .FROM) t) ∧
        (∃ more, Parseable (before ++ more)) ∧ ∀ more, ¬ Parseable (before ++ t :: more)) ∧
      parse "SELECT a FROM" = .error .endOfInput ∧
        ∃ more, more ≠ [] ∧ Parseable (words "SELECT a FROM" ++ more) := by
  have hword : parse "SELECT a FORM t" = .error (.expectedToken (.keyword .FROM)
      ⟨.identifier "FORM", "FORM", ⟨1, 10⟩⟩) := by decide +kernel
  have hsplit : tokens "SELECT a FORM t" =
      [⟨.keyword .SELECT, "SELECT", ⟨1, 1⟩⟩, ⟨.identifier "a", "a", ⟨1, 8⟩⟩] ++
        ⟨.identifier "FORM", "FORM", ⟨1, 10⟩⟩ ::
          [⟨.identifier "t", "t", ⟨1, 15⟩⟩, ⟨.endOfText, "", ⟨1, 15⟩⟩] := by decide +kernel
  have hend : parse "SELECT a FROM" = .error .endOfInput := by decide +kernel
  obtain ⟨-, -, hfault⟩ := (parse_fails_at_first_fault _).1 _ _ hword (.inr ⟨_, rfl⟩)
  exact ⟨⟨_, _, _, hsplit, rfl, hword, hfault _ _ hsplit⟩, hend,
    (parse_fails_at_first_fault _).2 hend⟩

end DocBase.Sql
