import DocBase.Proofs.Sql.Segments

namespace DocBase.Sql

variable {quote : Char} {cs text rest : List Char}

/-- A text either closes the quote before it or is itself a doubled one. -/
theorem doubled_of_readQuoted (h : readQuoted quote cs = none) :
    ∃ text, cs = doubled quote text := by
  fun_induction readQuoted quote cs with
  | case1 => exact ⟨[], rfl⟩
  | case2 ds ih =>
    obtain ⟨text, rfl⟩ := ih (Option.map_eq_none_iff.1 h)
    exact ⟨quote :: text, (doubled_quote quote text).symm⟩
  | case3 => cases h
  | case4 => cases h
  | case5 c cs hc ih =>
    obtain ⟨text, rfl⟩ := ih (Option.map_eq_none_iff.1 h)
    exact ⟨c :: text, (doubled_of_ne hc text).symm⟩

theorem readQuoted_doubled_eq_none (quote : Char) (text : List Char) :
    readQuoted quote (doubled quote text) = none := by
  have h := readQuoted_doubled_append quote text []
  rwa [List.append_nil] at h

/-- A quote is never closed by pairs of quotes and other characters, and by all else it is. -/
theorem unclosed_iff_doubled : Unclosed quote cs ↔ ∃ text, cs = doubled quote text := by
  rw [← readQuoted_eq_none_iff]
  constructor
  · exact doubled_of_readQuoted
  · rintro ⟨text, rfl⟩
    exact readQuoted_doubled_eq_none quote text

def quotes : List Char := ['\'', '"', '\x60']

/-- What a text between quotes is: a name between backticks, and else a string. -/
def TokenKind.ofQuoted (quote : Char) (text : List Char) : TokenKind :=
  if quote = '\x60' then .identifier (.ofList text) else .string (.ofList text)

/-- What is shown of a quoted text. A string keeps its quotes. -/
def quotedLiteral (quote : Char) (text : List Char) : String :=
  if quote = '\x60' then .ofList text else .ofList (quote :: text ++ [quote])

def unterminatedLiteral (quote : Char) : String :=
  if quote = '\x60' then "unterminated identifier" else "unterminated string"

theorem piece_quoted (hq : quote ∈ quotes) (hr : rest.head? ≠ some quote) :
    Piece (.ofQuoted quote text) (quotedLiteral quote text) (quoted quote text) rest := by
  simp only [quotes, List.mem_cons, List.not_mem_nil, or_false] at hq
  rcases hq with rfl | rfl | rfl
  · exact .string (.inl rfl) hr
  · exact .string (.inr rfl) hr
  · exact .name hr

theorem unterminated_of_unclosed (hq : quote ∈ quotes) (h : Unclosed quote cs) :
    Unterminated (unterminatedLiteral quote) (quote :: cs) := by
  simp only [quotes, List.mem_cons, List.not_mem_nil, or_false] at hq
  rcases hq with rfl | rfl | rfl
  · exact .string (.inl rfl) h
  · exact .string (.inr rfl) h
  · exact .name h

/-- Whatever stands before it, a doubled text between quotes is read back and nothing behind its
closing quote is touched. No text is read exactly where none stands between the quotes, and then all
that is left is one illegal token, a doubled text behind a quote. -/
theorem quoted_read_to_its_end (hq : quote ∈ quotes) {gap : List Char} (hg : Gap false gap)
    (before : List Char) :
    (∀ text rest, rest.head? ≠ some quote →
      readQuoted quote (doubled quote text ++ quote :: rest) = some (text, rest) ∧
        tokensFrom (endPlace before) (gap ++ (quoted quote text ++ rest)) =
          ⟨.ofQuoted quote text, quotedLiteral quote text, placeBehind (before ++ gap)⟩ ::
            tokensFrom (endPlace (before ++ gap ++ quoted quote text)) rest) ∧
    ∀ cs,
      (readQuoted quote cs = none ↔
        ¬ ∃ text rest, cs = doubled quote text ++ quote :: rest ∧ rest.head? ≠ some quote) ∧
      (readQuoted quote cs = none →
        (∃ text, cs = doubled quote text) ∧
          tokensFrom (endPlace before) (gap ++ quote :: cs) =
            [⟨.illegal, unterminatedLiteral quote, placeBehind (before ++ gap)⟩,
              ⟨.endOfText, "", endPlace (before ++ gap ++ quote :: cs)⟩]) := by
  constructor
  · intro text rest hr
    exact ⟨readQuoted_doubled text hr, tokensFrom_piece hg (piece_quoted hq hr)⟩
  · intro cs
    constructor
    · rw [readQuoted_eq_none_iff]
      constructor
      · rintro h ⟨text, rest, he, hr⟩
        exact h text rest hr he
      · intro h text rest hr he
        exact h ⟨text, rest, he, hr⟩
    · intro h
      have hu := readQuoted_eq_none_iff.1 h
      refine ⟨unclosed_iff_doubled.1 hu, ?_⟩
      exact (Cut.unterminated hg (unterminated_of_unclosed hq hu)).tokensFrom_eq

theorem quoted_read_to_its_end_of_runs :
    '\'' ∈ quotes ∧ '\x60' ∈ quotes ∧ Gap false [' '] ∧
      (readQuoted '\'' "it''s''', 1".toList = some ("it's'".toList, ", 1".toList) ∧
        tokensFrom (endPlace "a =".toList) " 'it''s''', 1".toList =
          ⟨.string "it's'", "'it's''", ⟨1, 5⟩⟩ ::
            tokensFrom (endPlace "a = 'it''s'''".toList) ", 1".toList) ∧
      readQuoted '\x60' "x\x60\x60".toList = none ∧
        tokensFrom (endPlace "a =".toList) " \x60x\x60\x60".toList =
          [⟨.illegal, "unterminated identifier", ⟨1, 5⟩⟩, ⟨.endOfText, "", ⟨1, 8⟩⟩] := by
  have hs : '\'' ∈ quotes := by decide
  have hn : '\x60' ∈ quotes := by decide
  have hg : Gap false [' '] := .blank rfl .nil
  have hopen : readQuoted '\x60' "x\x60\x60".toList = none := by decide
  refine ⟨hs, hn, hg, ?_, hopen, ?_⟩
  · exact (quoted_read_to_its_end hs hg "a =".toList).1 "it's'".toList ", 1".toList (by decide)
  · exact (((quoted_read_to_its_end hn hg "a =".toList).2 "x\x60\x60".toList).2 hopen).2

end DocBase.Sql
