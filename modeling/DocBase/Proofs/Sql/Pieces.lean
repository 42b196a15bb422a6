import DocBase.Proofs.Sql.Spelling
import DocBase.Proofs.Sql.Trimming
import DocBase.Proofs.Text.Run

namespace DocBase.Sql

open Text

/-- How signs are written; inequality in two ways. -/
inductive Sign.Written : Sign → List Char → Prop
  | symbol (s : Sign) : Written s s.symbol
  | angles : Written .notEqual ['<', '>']

/-- What a word is: a keyword, however its letters are written, or a name. -/
def TokenKind.ofWord (word : String) : TokenKind :=
  (Keyword.ofWord? word).elim (.identifier word) .keyword

/-- A piece of a text that is one token: the kind of the token, its literal, the characters of the
piece, and the text behind it, with which the piece cannot go on. A word ends where no character of
words follows, a number before what is no digit and, if it has no point yet, no point with a digit
behind it, and a sign where no longer sign and no comment starts. -/
inductive Piece : TokenKind → String → List Char → List Char → Prop
  | word {c : Char} {cs rest : List Char} : isLetter c → (∀ d ∈ cs, isWordChar d) →
      (∀ d ∈ rest.head?, isWordChar d = false) →
      Piece (.ofWord (.ofList (c :: cs))) (.ofList (c :: cs)) (c :: cs) rest
  | integer {digits rest : List Char} : digits ≠ [] → (∀ d ∈ digits, d.isDigit) →
      (∀ d ∈ rest.head?, d.isDigit = false) →
      (∀ d ds, rest = '.' :: d :: ds → d.isDigit = false) →
      Piece .integer (.ofList digits) digits rest
  | float {whole fraction rest : List Char} : whole ≠ [] → fraction ≠ [] →
      (∀ d ∈ whole ++ fraction, d.isDigit) → (∀ d ∈ rest.head?, d.isDigit = false) →
      Piece .float (.ofList (whole ++ '.' :: fraction)) (whole ++ '.' :: fraction) rest
  | sign {s : Sign} {symbol rest : List Char} : s.Written symbol →
      (∀ d ∈ rest.head?, ∀ s' : Sign, ¬ s'.Written (symbol ++ [d])) →
      ¬ ['-', '-'] <+: symbol ++ rest → Piece (.sign s) (.ofList symbol) symbol rest
  | string {quote : Char} {text rest : List Char} : quote = '\'' ∨ quote = '"' →
      rest.head? ≠ some quote →
      Piece (.string (.ofList text)) (.ofList (quote :: text ++ [quote])) (quoted quote text) rest
  | name {name rest : List Char} : rest.head? ≠ some '\x60' →
      Piece (.identifier (.ofList name)) (.ofList name) (quoted '\x60' name) rest
  | stray {c : Char} {rest : List Char} : isBlank c = false → isWordChar c = false →
      c ∉ ['\'', '"', '\x60'] → (∀ s : Sign, ¬ s.Written [c]) →
      (∀ d ∈ rest.head?, ∀ s : Sign, ¬ s.Written [c, d]) → Piece .illegal (.ofList [c]) [c] rest

/-- Where a token starts: at a character that is not blank and is not the first of a comment. -/
structure Starts (c : Char) (cs : List Char) : Prop where
  not_blank : isBlank c = false
  not_comment : c = '-' → cs.head? ≠ some '-'

/-- What stands behind a quote that is never closed. -/
def Unclosed (quote : Char) (cs : List Char) : Prop :=
  ∀ text rest, rest.head? ≠ some quote → cs ≠ doubled quote text ++ quote :: rest

/-- The rest of a text from a quote on that is never closed, and what is said of it. -/
inductive Unterminated : String → List Char → Prop
  | string {quote : Char} {cs : List Char} : quote = '\'' ∨ quote = '"' → Unclosed quote cs →
      Unterminated "unterminated string" (quote :: cs)
  | name {cs : List Char} : Unclosed '\x60' cs →
      Unterminated "unterminated identifier" ('\x60' :: cs)

theorem hyphens_prefix_iff {c : Char} {cs : List Char} :
    ['-', '-'] <+: c :: cs ↔ c = '-' ∧ cs.head? = some '-' := by
  rw [List.cons_prefix_cons, eq_comm]
  cases cs with
  | nil => simp
  | cons d cs => simp [eq_comm]

section
variable {quote : Char} {cs text rest : List Char}

theorem quoted_of_readQuoted (h : readQuoted quote cs = some (text, rest)) :
    rest.head? ≠ some quote ∧ cs = doubled quote text ++ quote :: rest := by
  fun_induction readQuoted quote cs generalizing text rest with
  | case1 => cases h
  | case2 ds ih =>
    obtain ⟨⟨text, rest⟩, hq, he⟩ := Option.map_eq_some_iff.1 h
    cases he
    obtain ⟨hr, rfl⟩ := ih hq
    exact ⟨hr, by rw [doubled_quote]; rfl⟩
  | case3 d ds hd =>
    cases h
    exact ⟨fun he => hd (Option.some.inj he), rfl⟩
  | case4 =>
    cases h
    exact ⟨(Option.some_ne_none quote).symm, rfl⟩
  | case5 c cs hc ih =>
    obtain ⟨⟨text, rest⟩, hq, he⟩ := Option.map_eq_some_iff.1 h
    cases he
    obtain ⟨hr, rfl⟩ := ih hq
    exact ⟨hr, by rw [doubled_of_ne hc]; rfl⟩

theorem readQuoted_eq_none_iff : readQuoted quote cs = none ↔ Unclosed quote cs := by
  constructor
  · rintro h text rest hr rfl
    rw [readQuoted_doubled text hr] at h
    cases h
  · intro h
    cases hq : readQuoted quote cs with
    | none => rfl
    | some found =>
      obtain ⟨hr, he⟩ := quoted_of_readQuoted hq
      exact absurd he (h _ _ hr)

end

namespace Sign

variable {s : Sign} {c d : Char} {symbol : List Char}

theorem Written.length_le (h : s.Written symbol) : symbol.length ≤ 2 := by
  cases h with
  | symbol => cases s <;> decide
  | angles => decide

theorem Written.ne_nil (h : s.Written symbol) : symbol ≠ [] := by
  cases h with
  | symbol => cases s <;> decide
  | angles => decide

theorem Written.not_blank (h : s.Written (c :: symbol)) : isBlank c = false := by
  generalize hs : c :: symbol = cs at h
  cases h with
  | symbol => cases s <;> cases hs <;> rfl
  | angles =>
    cases hs
    rfl

theorem Written.pair (h : s.Written [c, d]) :
    c = '<' ∧ (d = '=' ∨ d = '>') ∨ c = '>' ∧ d = '=' ∨ c = '!' ∧ d = '=' := by
  generalize hs : [c, d] = symbol at h
  cases h with
  | symbol => cases s <;> cases hs <;> decide
  | angles =>
    cases hs
    decide

end Sign

namespace Lexeme

theorem sign?_sound {c : Char} {cs : List Char} {lexeme : Lexeme} (h : sign? c cs = some lexeme) :
    ∃ s : Sign, ∃ symbol rest, lexeme = ⟨.sign s, .ofList symbol, rest⟩ ∧ s.Written symbol ∧
      c :: cs = symbol ++ rest ∧ ∀ d ∈ rest.head?, ∀ s' : Sign, ¬ s'.Written (symbol ++ [d]) := by
  unfold sign? at h
  split at h
  all_goals cases h
  -- No sign is three characters long, and the second character of two decides.
  iterate 4
    refine ⟨_, _, _, rfl, by constructor, rfl, ?_⟩
    intro d _ s' hw
    exact absurd hw.length_le (by simp)
  all_goals
    refine ⟨_, _, _, rfl, by constructor, rfl, ?_⟩
    intro d hd s' hw
    obtain ⟨ds, rfl⟩ := List.head?_eq_some_iff.1 hd
    have hp := hw.pair
    simp_all

theorem sign?_complete {s : Sign} {c : Char} {tail rest : List Char} (h : s.Written (c :: tail))
    (hr : ∀ d ∈ rest.head?, ∀ s' : Sign, ¬ s'.Written (c :: tail ++ [d])) :
    sign? c (tail ++ rest) = some ⟨.sign s, .ofList (c :: tail), rest⟩ := by
  generalize hs : c :: tail = symbol at h
  cases h with
  | angles =>
    cases hs
    rfl
  | symbol =>
    cases rest with
    | nil =>
      cases s <;> cases hs <;> rfl
    | cons d rest =>
      have hd := hr d rfl
      cases s with
      | less =>
        cases hs
        have he : d ≠ '=' := fun he => hd .lessEqual (he ▸ .symbol _)
        have hg : d ≠ '>' := fun hg => hd .notEqual (hg ▸ .angles)
        simp [sign?, Sign.symbol, he, hg]
      | greater =>
        cases hs
        have he : d ≠ '=' := fun he => hd .greaterEqual (he ▸ .symbol _)
        simp [sign?, Sign.symbol, he]
      | _ =>
        cases hs
        rfl

theorem sign?_eq_none {c : Char} {cs : List Char} (hs : ∀ s : Sign, ¬ s.Written [c])
    (hp : ∀ d ∈ cs.head?, ∀ s : Sign, ¬ s.Written [c, d]) : sign? c cs = none := by
  cases h : sign? c cs with
  | none => rfl
  | some lexeme =>
    obtain ⟨s, symbol, rest, -, hw, he, -⟩ := sign?_sound h
    match symbol, hw.length_le with
    | [], _ => exact absurd rfl hw.ne_nil
    | [d], _ =>
      cases he
      exact absurd hw (hs s)
    | [d, e], _ =>
      cases he
      exact absurd hw (hp e rfl s)

theorem not_written_of_sign?_eq_none {c : Char} {cs : List Char} (h : sign? c cs = none) :
    (∀ s : Sign, ¬ s.Written [c]) ∧ ∀ d ∈ cs.head?, ∀ s : Sign, ¬ s.Written [c, d] := by
  have hp : ∀ d ∈ cs.head?, ∀ s : Sign, ¬ s.Written [c, d] := by
    intro d hd s hw
    obtain ⟨ds, rfl⟩ := List.head?_eq_some_iff.1 hd
    have hr : ∀ e ∈ ds.head?, ∀ s' : Sign, ¬ s'.Written ([c, d] ++ [e]) :=
      fun e _ s' hw' => absurd hw'.length_le (by simp)
    cases h.symm.trans (sign?_complete hw hr)
  refine ⟨?_, hp⟩
  intro s hw
  have hc : sign? c ([] ++ cs) = _ := sign?_complete hw hp
  cases h.symm.trans hc

/-- What is read is a piece at the front of the text, or a quote that is never closed. -/
def Sliced (lexeme : Lexeme) (cs : List Char) : Prop :=
  (∃ piece, Piece lexeme.kind lexeme.literal piece lexeme.rest ∧ cs = piece ++ lexeme.rest) ∨
    ∃ literal, Unterminated literal cs ∧ lexeme = ⟨.illegal, literal, []⟩

variable {c : Char} {cs : List Char}

theorem Sliced.piece {kind : TokenKind} {literal : String} {piece rest cs : List Char}
    (h : Piece kind literal piece rest) (he : cs = piece ++ rest) :
    (⟨kind, literal, rest⟩ : Lexeme).Sliced cs := .inl ⟨piece, h, he⟩

theorem Sliced.unterminated {literal : String} {cs : List Char} (h : Unterminated literal cs) :
    (⟨.illegal, literal, []⟩ : Lexeme).Sliced cs := .inr ⟨literal, h, rfl⟩

theorem ofWord_eq (word rest : List Char) :
    ofWord word rest = ⟨.ofWord (.ofList word), .ofList word, rest⟩ := by
  rw [ofWord, TokenKind.ofWord]
  cases Keyword.ofWord? (.ofList word) <;> rfl

theorem sliced_ofWord (hc : isLetter c) :
    (ofWord (c :: cs.takeWhile isWordChar) (cs.dropWhile isWordChar)).Sliced (c :: cs) := by
  have hw : ∀ d ∈ cs.takeWhile isWordChar, isWordChar d := fun d hd => of_mem_takeWhile hd
  rw [ofWord_eq]
  refine .piece (.word hc hw (stops_dropWhile isWordChar cs)) ?_
  rw [List.cons_append, List.takeWhile_append_dropWhile]

theorem sliced_ofNumber (hc : c.isDigit) : (ofNumber c cs).Sliced (c :: cs) := by
  have hw : ∀ d ∈ c :: cs.takeWhile Char.isDigit, d.isDigit :=
    List.forall_mem_cons.2 ⟨hc, fun d hd => of_mem_takeWhile hd⟩
  have he : c :: cs = c :: cs.takeWhile Char.isDigit ++ cs.dropWhile Char.isDigit := by
    rw [List.cons_append, List.takeWhile_append_dropWhile]
  have hr := stops_dropWhile Char.isDigit cs
  have hne : c :: cs.takeWhile Char.isDigit ≠ [] := List.cons_ne_nil _ _
  simp only [ofNumber]
  generalize c :: cs.takeWhile Char.isDigit = whole at *
  generalize cs.dropWhile Char.isDigit = rest at *
  split
  · next d ds =>
    split
    · next hd =>
      have hf : ∀ e ∈ d :: ds.takeWhile Char.isDigit, e.isDigit :=
        List.forall_mem_cons.2 ⟨hd, fun e he => of_mem_takeWhile he⟩
      refine .piece (.float hne (List.cons_ne_nil _ _) (List.forall_mem_append.2 ⟨hw, hf⟩)
        (stops_dropWhile _ _)) ?_
      rw [he, List.append_assoc, List.cons_append, List.cons_append,
        List.takeWhile_append_dropWhile]
    · next hd =>
      refine .piece (.integer hne hw hr ?_) he
      rintro e es ⟨⟩
      exact Bool.eq_false_iff.2 hd
  · next hn =>
    refine .piece (.integer hne hw hr ?_) he
    rintro e es rfl
    exact absurd rfl (hn e es)

theorem sliced_ofString {quote : Char} (hq : quote = '\'' ∨ quote = '"') :
    (ofString quote cs).Sliced (quote :: cs) := by
  rw [ofString]
  cases h : readQuoted quote cs with
  | none => exact .unterminated (.string hq (readQuoted_eq_none_iff.1 h))
  | some found =>
    obtain ⟨hr, rfl⟩ := quoted_of_readQuoted h
    exact .piece (.string hq hr) (by simp [quoted])

theorem sliced_ofQuotedName : (ofQuotedName cs).Sliced ('\x60' :: cs) := by
  rw [ofQuotedName]
  cases h : readQuoted '\x60' cs with
  | none => exact .unterminated (.name (readQuoted_eq_none_iff.1 h))
  | some found =>
    obtain ⟨hr, rfl⟩ := quoted_of_readQuoted h
    exact .piece (.name hr) (by simp [quoted])

theorem sliced_sign {lexeme : Lexeme} (h : sign? c cs = some lexeme) (hc : Starts c cs) :
    lexeme.Sliced (c :: cs) := by
  obtain ⟨s, symbol, rest, rfl, hw, he, hr⟩ := sign?_sound h
  refine .piece (.sign hw hr ?_) he
  rw [← he, hyphens_prefix_iff]
  exact fun h => hc.not_comment h.1 h.2

theorem sliced_read (hc : Starts c cs) : (read c cs).Sliced (c :: cs) := by
  rw [read]
  cases h : sign? c cs with
  | some lexeme => exact sliced_sign h hc
  | none =>
    dsimp only
    split
    · next hq => exact sliced_ofString hq
    · next hq =>
      split
      · next hn =>
        subst hn
        exact sliced_ofQuotedName
      · next hn =>
        split
        · next hl => exact sliced_ofWord hl
        · next hl =>
          split
          · next hd => exact sliced_ofNumber hd
          · next hd =>
            obtain ⟨hs, hp⟩ := not_written_of_sign?_eq_none h
            have hw : isWordChar c = false := by
              rw [isWordChar, Bool.eq_false_iff.2 hl, Bool.eq_false_iff.2 hd, Bool.or_false]
            have hquote : c ∉ ['\'', '"', '\x60'] := by
              obtain ⟨h1, h2⟩ := not_or.1 hq
              simp [h1, h2, hn]
            exact .piece (.stray hc.not_blank hw hquote hs hp) rfl

end Lexeme

open Lexeme

theorem not_blank_of_isWordChar {c : Char} (h : isWordChar c) : isBlank c = false := by
  rw [Bool.eq_false_iff]
  intro hb
  exact Bool.false_ne_true ((isWordChar_of_isBlank hb).symm.trans h)

theorem starts_of_ne {c : Char} (hb : isBlank c = false) (hc : c ≠ '-') (cs : List Char) :
    Starts c cs :=
  ⟨hb, fun he => absurd he hc⟩

theorem starts_of_quote {quote : Char} (hq : quote = '\'' ∨ quote = '"') (cs : List Char) :
    Starts quote cs := by
  rcases hq with rfl | rfl
  · exact starts_of_ne rfl (by decide) cs
  · exact starts_of_ne rfl (by decide) cs

theorem read_of_quote {quote : Char} (hq : quote = '\'' ∨ quote = '"') (cs : List Char) :
    read quote cs = ofString quote cs := by
  rcases hq with rfl | rfl <;> rfl

theorem starts_of_isWordChar {c : Char} (h : isWordChar c) (cs : List Char) : Starts c cs := by
  refine ⟨not_blank_of_isWordChar h, ?_⟩
  rintro rfl
  exact absurd h (by decide +kernel)

namespace Piece

/-- A piece is read from its first character on, and nothing else is. -/
def Leads (kind : TokenKind) (literal : String) (piece rest : List Char) : Prop :=
  ∃ c tail, piece = c :: tail ∧ Starts c (tail ++ rest) ∧
    read c (tail ++ rest) = ⟨kind, literal, rest⟩

variable {c : Char} {cs rest digits whole fraction symbol name text : List Char}

theorem leads_word (hc : isLetter c) (hw : ∀ d ∈ cs, isWordChar d)
    (hr : ∀ d ∈ rest.head?, isWordChar d = false) :
    Leads (.ofWord (.ofList (c :: cs))) (.ofList (c :: cs)) (c :: cs) rest := by
  refine ⟨c, cs, rfl, starts_of_isWordChar (by rw [isWordChar, hc, Bool.true_or]) _, ?_⟩
  rw [read_of_letter hc, takeWhile_append_of_stops hw hr, dropWhile_append_of_stops hw hr,
    ofWord_eq]

theorem leads_of_digit (hc : c.isDigit) {lexeme : Lexeme} (h : ofNumber c (cs ++ rest) = lexeme)
    (hr : lexeme.rest = rest) : Leads lexeme.kind lexeme.literal (c :: cs) rest := by
  refine ⟨c, cs, rfl, starts_of_isWordChar (by rw [isWordChar, hc, Bool.or_true]) _, ?_⟩
  rw [read_of_digit hc, h, ← hr]

theorem leads_integer (hne : digits ≠ []) (hd : ∀ d ∈ digits, d.isDigit)
    (hr : ∀ d ∈ rest.head?, d.isDigit = false)
    (hp : ∀ d ds, rest = '.' :: d :: ds → d.isDigit = false) :
    Leads .integer (.ofList digits) digits rest := by
  obtain ⟨c, cs, rfl⟩ := List.exists_cons_of_ne_nil hne
  obtain ⟨hc, hcs⟩ := List.forall_mem_cons.1 hd
  have hn : ofNumber c (cs ++ rest) = ⟨.integer, .ofList (c :: cs), rest⟩ := by
    simp only [ofNumber, takeWhile_append_of_stops hcs hr, dropWhile_append_of_stops hcs hr]
    split
    · next d ds => rw [if_neg (Bool.eq_false_iff.1 (hp d ds rfl))]
    · rfl
  exact leads_of_digit hc hn rfl

theorem leads_float (hw : whole ≠ []) (hf : fraction ≠ [])
    (hd : ∀ d ∈ whole ++ fraction, d.isDigit) (hr : ∀ d ∈ rest.head?, d.isDigit = false) :
    Leads .float (.ofList (whole ++ '.' :: fraction)) (whole ++ '.' :: fraction) rest := by
  obtain ⟨c, cs, rfl⟩ := List.exists_cons_of_ne_nil hw
  obtain ⟨e, es, rfl⟩ := List.exists_cons_of_ne_nil hf
  obtain ⟨hwhole, hfraction⟩ := List.forall_mem_append.1 hd
  obtain ⟨hc, hcs⟩ := List.forall_mem_cons.1 hwhole
  obtain ⟨he, hes⟩ := List.forall_mem_cons.1 hfraction
  have hpoint : ∀ d ∈ ('.' :: e :: (es ++ rest)).head?, d.isDigit = false := by
    rintro d ⟨⟩
    rfl
  have hn : ofNumber c (cs ++ '.' :: e :: es ++ rest) =
      ⟨.float, .ofList (c :: cs ++ '.' :: e :: es), rest⟩ := by
    rw [List.append_assoc, List.cons_append, List.cons_append]
    simp only [ofNumber, takeWhile_append_of_stops hcs hpoint, dropWhile_append_of_stops hcs hpoint,
      takeWhile_append_of_stops hes hr, dropWhile_append_of_stops hes hr]
    rw [if_pos he]
  exact leads_of_digit hc hn rfl

theorem leads_sign {s : Sign} (hs : s.Written symbol)
    (hr : ∀ d ∈ rest.head?, ∀ s' : Sign, ¬ s'.Written (symbol ++ [d]))
    (hm : ¬ ['-', '-'] <+: symbol ++ rest) :
    Leads (.sign s) (.ofList symbol) symbol rest := by
  obtain ⟨c, tail, rfl⟩ := List.exists_cons_of_ne_nil hs.ne_nil
  refine ⟨c, tail, rfl, ⟨hs.not_blank, ?_⟩, ?_⟩
  · exact fun hc hh => hm (hyphens_prefix_iff.2 ⟨hc, hh⟩)
  · rw [Lexeme.read, sign?_complete hs hr]

theorem leads_string {quote : Char} (hq : quote = '\'' ∨ quote = '"')
    (hr : rest.head? ≠ some quote) :
    Leads (.string (.ofList text)) (.ofList (quote :: text ++ [quote])) (quoted quote text)
      rest := by
  refine ⟨quote, _, rfl, starts_of_quote hq _, ?_⟩
  rw [read_of_quote hq, ofString, List.append_assoc, List.singleton_append,
    readQuoted_doubled text hr]

theorem leads_name (hr : rest.head? ≠ some '\x60') :
    Leads (.identifier (.ofList name)) (.ofList name) (quoted '\x60' name) rest := by
  refine ⟨'\x60', _, rfl, starts_of_ne rfl (by decide) _, ?_⟩
  change ofQuotedName _ = _
  rw [ofQuotedName, List.append_assoc, List.singleton_append, readQuoted_doubled name hr]

theorem leads_stray (hb : isBlank c = false) (hw : isWordChar c = false)
    (hq : c ∉ ['\'', '"', '\x60']) (hs : ∀ s : Sign, ¬ s.Written [c])
    (hp : ∀ d ∈ rest.head?, ∀ s : Sign, ¬ s.Written [c, d]) :
    Leads .illegal (.ofList [c]) [c] rest := by
  obtain ⟨hl, hd⟩ := Bool.or_eq_false_iff.1 hw
  simp only [List.mem_cons, List.not_mem_nil, or_false, not_or] at hq
  obtain ⟨hq₁, hq₂, hn⟩ := hq
  refine ⟨c, [], rfl, ⟨hb, ?_⟩, ?_⟩
  · rintro rfl
    exact absurd (.symbol .minus) (hs .minus)
  · rw [List.nil_append, Lexeme.read, sign?_eq_none hs hp]
    dsimp only
    rw [if_neg (not_or.2 ⟨hq₁, hq₂⟩), if_neg hn, if_neg (Bool.eq_false_iff.1 hl),
      if_neg (Bool.eq_false_iff.1 hd)]

theorem leads {kind : TokenKind} {literal : String} {piece : List Char}
    (h : Piece kind literal piece rest) : Leads kind literal piece rest := by
  cases h with
  | word hc hw hr => exact leads_word hc hw hr
  | integer hne hd hr hp => exact leads_integer hne hd hr hp
  | float hw hf hd hr => exact leads_float hw hf hd hr
  | sign hs hr hm => exact leads_sign hs hr hm
  | string hq hr => exact leads_string hq hr
  | name hr => exact leads_name hr
  | stray hb hw hq hs hp => exact leads_stray hb hw hq hs hp

end Piece

theorem Unterminated.read_eq {literal : String} {c : Char} {cs : List Char}
    (h : Unterminated literal (c :: cs)) :
    Starts c cs ∧ read c cs = ⟨.illegal, literal, []⟩ := by
  cases h with
  | string hq hu =>
    refine ⟨starts_of_quote hq cs, ?_⟩
    rw [read_of_quote hq, ofString, readQuoted_eq_none_iff.2 hu]
  | name hu =>
    refine ⟨starts_of_ne rfl (by decide) _, ?_⟩
    change ofQuotedName _ = _
    rw [ofQuotedName, readQuoted_eq_none_iff.2 hu]

end DocBase.Sql
