import DocBase.Proofs.Binary64.Numeral
import DocBase.Proofs.Sql.Lexing
import Mathlib.Data.List.Forall2

namespace DocBase.Sql

/-- The characters with every quote doubled. -/
def doubled (quote : Char) (cs : List Char) : List Char :=
  cs.flatMap fun c => if c = quote then [quote, quote] else [c]

theorem doubled_quote (quote : Char) (cs : List Char) :
    doubled quote (quote :: cs) = quote :: quote :: doubled quote cs := by
  rw [doubled, List.flatMap_cons, if_pos rfl]
  rfl

theorem doubled_of_ne {quote c : Char} (h : c ≠ quote) (cs : List Char) :
    doubled quote (c :: cs) = c :: doubled quote cs := by
  rw [doubled, List.flatMap_cons, if_neg h]
  rfl

/-- A doubled text in front is read whatever follows, so pairs of quotes never close. -/
theorem readQuoted_doubled_append (quote : Char) (text cs : List Char) :
    readQuoted quote (doubled quote text ++ cs) =
      (readQuoted quote cs).map fun (more, rest) => (text ++ more, rest) := by
  induction text with
  | nil => exact Option.map_id'.symm
  | cons c text ih =>
    by_cases hc : c = quote
    · subst hc
      rw [doubled_quote, List.cons_append, List.cons_append, readQuoted]
      simp only [if_true, ih, Option.map_map]
      rfl
    · rw [doubled_of_ne hc, List.cons_append, readQuoted.eq_def]
      simp only [if_neg hc, ih, Option.map_map]
      rfl

theorem readQuoted_closing {quote : Char} {rest : List Char} (h : rest.head? ≠ some quote) :
    readQuoted quote (quote :: rest) = some ([], rest) := by
  cases rest with
  | nil => simp [readQuoted]
  | cons d ds =>
    have hd : d ≠ quote := fun he => h (congrArg some he)
    simp [readQuoted, hd]

theorem readQuoted_doubled {quote : Char} (cs : List Char) {rest : List Char}
    (h : rest.head? ≠ some quote) :
    readQuoted quote (doubled quote cs ++ quote :: rest) = some (cs, rest) := by
  simp [readQuoted_doubled_append, readQuoted_closing h]

def quoted (quote : Char) (cs : List Char) : List Char := quote :: (doubled quote cs ++ [quote])

def Sign.symbol : Sign → List Char
  | equal => ['=']
  | notEqual => ['!', '=']
  | less => ['<']
  | greater => ['>']
  | lessEqual => ['<', '=']
  | greaterEqual => ['>', '=']
  | minus => ['-']
  | asterisk => ['*']
  | semicolon => [';']
  | comma => [',']
  | leftParen => ['(']
  | rightParen => [')']
  | dot => ['.']

/-- What is written for one token. Numerals have no sign of their own. -/
inductive Glyph
  | keyword (k : Keyword)
  | sign (s : Sign)
  | name (name : String)
  | string (text : String)
  | integer (magnitude : Nat)
  | float (negative : Bool) (f : Binary64)

namespace Glyph

/-- Names stand between backticks, strings between single quotes, and a quote inside is doubled. A
float is spelled by any digits with a point among them that stand for it behind its sign. -/
inductive Spells : Glyph → List Char → Prop
  | keyword (k : Keyword) : Spells (.keyword k) k.spelling.toList
  | sign (s : Sign) : Spells (.sign s) s.symbol
  | name (name : String) : Spells (.name name) (quoted '\x60' name.toList)
  | string (text : String) : Spells (.string text) (quoted '\'' text.toList)
  | integer (magnitude : Nat) : Spells (.integer magnitude) (Nat.toDigits 10 magnitude)
  | float {negative : Bool} {f : Binary64} {whole fraction : List Char} :
    IsNumeral negative f whole fraction → Spells (.float negative f) (whole ++ '.' :: fraction)

def spelling : Glyph → List Char
  | keyword k => k.spelling.toList
  | sign s => s.symbol
  | name text => quoted '\x60' text.toList
  | string text => quoted '\'' text.toList
  | integer magnitude => Nat.toDigits 10 magnitude
  | float _ f => f.numeral.1 ++ '.' :: f.numeral.2

/-- Glyphs that have a spelling: all but floats that are NaN or have another sign. -/
def Spellable : Glyph → Prop
  | float negative f => f ≠ .nan ∧ f.isNegative = negative
  | _ => True

theorem Spellable.spells {g : Glyph} (h : g.Spellable) : g.Spells g.spelling := by
  cases g with
  | keyword k => exact .keyword k
  | sign s => exact .sign s
  | name name => exact .name name
  | string text => exact .string text
  | integer magnitude => exact .integer magnitude
  | float negative f =>
    obtain ⟨hf, rfl⟩ := h
    exact .float (Binary64.isNumeral_numeral hf)

/-- The tokens that a glyph can be read as. -/
inductive Reads : Glyph → Token → Prop
  | keyword {k : Keyword} {t : Token} : t.kind = .keyword k → Reads (.keyword k) t
  | sign {s : Sign} {t : Token} : t.kind = .sign s → Reads (.sign s) t
  | name {name : String} {t : Token} : t.kind = .identifier name → Reads (.name name) t
  | string {text : String} {t : Token} : t.kind = .string text → Reads (.string text) t
  | integer {magnitude : Nat} {digits : List Char} {t : Token} : t.IsInteger digits →
    digitsValue digits = magnitude → Reads (.integer magnitude) t
  | float {negative : Bool} {f : Binary64} {whole fraction : List Char} {t : Token} :
    t.IsFloat whole fraction →
    .ofDecimal negative (digitsValue (whole ++ fraction)) (-fraction.length) = f →
    Reads (.float negative f) t

end Glyph

/-- Nothing or a space, which is where a token ends. -/
def Parted (rest : List Char) : Prop := ∀ c ∈ rest.head?, c = ' '

namespace Parted

variable {rest : List Char}

theorem nil : Parted [] := nofun

theorem space (rest : List Char) : Parted (' ' :: rest) := by
  intro c hc
  exact (Option.some.inj hc).symm

theorem head?_ne (h : Parted rest) {c : Char} (hc : c ≠ ' ') : rest.head? ≠ some c :=
  fun he => hc (h c he)

theorem stops (h : Parted rest) {p : Char → Bool} (hp : p ' ' = false) :
    ∀ c ∈ rest.head?, p c = false := by
  intro c hc
  rw [h c hc, hp]

theorem takeWhile_append (h : Parted rest) {p : Char → Bool} (hp : p ' ' = false)
    {cs : List Char} (hcs : ∀ c ∈ cs, p c) : (cs ++ rest).takeWhile p = cs :=
  Text.takeWhile_append_of_stops hcs (h.stops hp)

theorem dropWhile_append (h : Parted rest) {p : Char → Bool} (hp : p ' ' = false)
    {cs : List Char} (hcs : ∀ c ∈ cs, p c) : (cs ++ rest).dropWhile p = rest :=
  Text.dropWhile_append_of_stops hcs (h.stops hp)

end Parted

theorem skipLayout_of_start {c : Char} {cs : List Char} (hb : Text.isBlank c = false)
    (hm : c = '-' → cs.head? ≠ some '-') : skipLayout false (c :: cs) = c :: cs := by
  rw [skipLayout, if_neg (by simp [hb]), if_neg fun h => hm h.1 h.2]

theorem mem_digits {c : Char} (h : c.isDigit) : c ∈ "0123456789".toList := by
  simp only [Char.isDigit, Bool.and_eq_true, decide_eq_true_eq, ge_iff_le,
    UInt32.le_iff_toNat_le] at h
  have hall : ∀ n ≤ 57, 48 ≤ n → Char.ofNat n ∈ "0123456789".toList := by decide
  rw [← Char.ofNat_toNat c]
  exact hall _ h.2 h.1

theorem not_blank_of_isDigit {c : Char} (h : c.isDigit) : Text.isBlank c = false := by
  have hall : "0123456789".toList.all (Text.isBlank · == false) := by decide
  exact eq_of_beq (List.all_eq_true.1 hall c (mem_digits h))

theorem not_letter_of_isDigit {c : Char} (h : c.isDigit) : Text.isLetter c = false := by
  have hall : "0123456789".toList.all (Text.isLetter · == false) := by decide
  exact eq_of_beq (List.all_eq_true.1 hall c (mem_digits h))

theorem isLetter_of_mem_spelling {k : Keyword} {c : Char} (h : c ∈ k.spelling.toList) :
    Text.isLetter c := by
  have hall : k.spelling.toList.all Text.isLetter := by cases k <;> decide
  exact List.all_eq_true.1 hall c h

theorem not_blank_of_mem_spelling {k : Keyword} {c : Char} (h : c ∈ k.spelling.toList) :
    Text.isBlank c = false := by
  have hall : k.spelling.toList.all (Text.isBlank · == false) := by cases k <;> decide
  exact eq_of_beq (List.all_eq_true.1 hall c h)

namespace Lexeme

/-- A lexeme that is a token for the glyph, wherever it stands, and leaves the rest. -/
structure Takes (lexeme : Lexeme) (g : Glyph) (rest : List Char) : Prop where
  reads (p : Position) : g.Reads ⟨lexeme.kind, lexeme.literal, p⟩
  rest_eq : lexeme.rest = rest

theorem sign?_of_start {c : Char} (h : Text.isLetter c ∨ c.isDigit) (cs : List Char) :
    sign? c cs = none := by
  unfold sign?
  split <;> first | rfl | exact absurd h (by decide)

theorem read_of_start {c : Char} (h : Text.isLetter c ∨ c.isDigit) (cs : List Char) :
    read c cs =
      if Text.isLetter c then ofWord (c :: cs.takeWhile isWordChar) (cs.dropWhile isWordChar)
      else ofNumber c cs := by
  have hq : ¬ (c = '\'' ∨ c = '"') := by
    rintro (rfl | rfl) <;> exact absurd h (by decide)
  have hn : c ≠ '\x60' := by
    rintro rfl
    exact absurd h (by decide)
  rw [read, sign?_of_start h]
  dsimp only
  rw [if_neg hq, if_neg hn]
  split
  · rfl
  · next hl => rw [if_pos (h.resolve_left hl)]

theorem read_of_letter {c : Char} (h : Text.isLetter c) (cs : List Char) :
    read c cs = ofWord (c :: cs.takeWhile isWordChar) (cs.dropWhile isWordChar) := by
  rw [read_of_start (.inl h), if_pos h]

theorem read_of_digit {c : Char} (h : c.isDigit) (cs : List Char) : read c cs = ofNumber c cs := by
  rw [read_of_start (.inr h), if_neg (by simp [not_letter_of_isDigit h])]

end Lexeme

/-- What is spelled starts a token with its first character, and the token ends where a space or
nothing follows. -/
structure Glyph.Leads (g : Glyph) (c : Char) (tail rest : List Char) : Prop where
  starts : skipLayout false (c :: (tail ++ rest)) = c :: (tail ++ rest)
  takes : (Lexeme.read c (tail ++ rest)).Takes g rest

namespace Glyph

variable {rest : List Char} (hr : Parted rest)
include hr

theorem leads_keyword (k : Keyword) :
    ∃ c tail, k.spelling.toList = c :: tail ∧ (keyword k).Leads c tail rest := by
  have hne : k.spelling.toList ≠ [] := by
    cases k <;> decide
  obtain ⟨c, tail, hc⟩ := List.exists_cons_of_ne_nil hne
  have hb : Text.isBlank c = false := not_blank_of_mem_spelling (k := k) (hc ▸ .head _)
  have hl : Text.isLetter c := isLetter_of_mem_spelling (k := k) (hc ▸ .head _)
  have hm : c ≠ '-' := by
    rintro rfl
    exact absurd hl (by decide)
  have hw : ∀ d ∈ tail, isWordChar d := fun d hd => by
    rw [isWordChar, isLetter_of_mem_spelling (k := k) (hc ▸ .tail _ hd), Bool.true_or]
  have hword : Keyword.ofWord? k.spelling = some k := by
    cases k <;> rfl
  have hread : Lexeme.read c (tail ++ rest) = ⟨.keyword k, k.spelling, rest⟩ := by
    rw [Lexeme.read_of_letter hl, hr.takeWhile_append rfl hw, hr.dropWhile_append rfl hw, ← hc,
      Lexeme.ofWord, String.ofList_toList]
    simp only [hword]
  refine ⟨c, tail, hc, skipLayout_of_start hb fun h => absurd h hm, ?_⟩
  rw [hread]
  exact ⟨fun p => .keyword rfl, rfl⟩

theorem leads_sign (s : Sign) :
    ∃ c tail, s.symbol = c :: tail ∧ (sign s).Leads c tail rest := by
  -- Two-character signs start like others, so what follows decides.
  cases rest with
  | nil => cases s <;> exact ⟨_, _, rfl, skipLayout_of_start rfl (by simp), fun p => .sign rfl, rfl⟩
  | cons c more =>
    obtain rfl := hr c rfl
    cases s <;> exact ⟨_, _, rfl, skipLayout_of_start rfl (by simp), fun p => .sign rfl, rfl⟩

theorem leads_name (name : String) :
    (Glyph.name name).Leads '\x60' (doubled '\x60' name.toList ++ ['\x60']) rest := by
  have hread : Lexeme.read '\x60' (doubled '\x60' name.toList ++ ['\x60'] ++ rest) =
      ⟨.identifier name, name, rest⟩ := by
    change Lexeme.ofQuotedName _ = _
    rw [Lexeme.ofQuotedName, List.append_assoc, List.singleton_append,
      readQuoted_doubled _ (hr.head?_ne (by decide))]
    simp only [String.ofList_toList]
  refine ⟨skipLayout_of_start rfl fun h => absurd h (by decide), ?_⟩
  rw [hread]
  exact ⟨fun p => .name rfl, rfl⟩

theorem leads_string (text : String) :
    (string text).Leads '\'' (doubled '\'' text.toList ++ ['\'']) rest := by
  have hread : ∃ literal, Lexeme.read '\'' (doubled '\'' text.toList ++ ['\''] ++ rest) =
      ⟨.string text, literal, rest⟩ := by
    change ∃ literal, Lexeme.ofString '\'' _ = _
    rw [Lexeme.ofString, List.append_assoc, List.singleton_append,
      readQuoted_doubled _ (hr.head?_ne (by decide))]
    simp only [String.ofList_toList]
    exact ⟨_, rfl⟩
  obtain ⟨literal, hread⟩ := hread
  refine ⟨skipLayout_of_start rfl fun h => absurd h (by decide), ?_⟩
  rw [hread]
  exact ⟨fun p => .string rfl, rfl⟩

omit hr in
theorem leads_digit {g : Glyph} {c : Char} {tail : List Char} (hc : c.isDigit)
    (ht : (Lexeme.ofNumber c (tail ++ rest)).Takes g rest) : g.Leads c tail rest := by
  refine ⟨skipLayout_of_start (not_blank_of_isDigit hc) ?_, ?_⟩
  · rintro rfl
    cases hc
  · rw [Lexeme.read_of_digit hc]
    exact ht

theorem leads_integer {c : Char} {tail : List Char} (hd : ∀ d ∈ c :: tail, d.isDigit) :
    (integer (digitsValue (c :: tail))).Leads c tail rest := by
  have ht : ∀ d ∈ tail, d.isDigit := fun d hm => hd d (.tail _ hm)
  have hread : Lexeme.ofNumber c (tail ++ rest) = ⟨.integer, .ofList (c :: tail), rest⟩ := by
    rw [Lexeme.ofNumber, hr.takeWhile_append rfl ht, hr.dropWhile_append rfl ht]
    cases rest with
    | nil => rfl
    | cons d more =>
      obtain rfl := hr d rfl
      rfl
  apply leads_digit (hd c (.head _))
  rw [hread]
  refine ⟨?_, rfl⟩
  intro p
  exact .integer ⟨rfl, String.toList_ofList, List.cons_ne_nil _ _, hd⟩ rfl

theorem leads_float {negative : Bool} {f : Binary64} {c d : Char} {whole fraction : List Char}
    (hn : IsNumeral negative f (c :: whole) (d :: fraction)) :
    (float negative f).Leads c (whole ++ '.' :: d :: fraction) rest := by
  have hw : ∀ e ∈ whole, e.isDigit := fun e hm => hn.digits e (by simp [hm])
  have hf : ∀ e ∈ fraction, e.isDigit := fun e hm => hn.digits e (by simp [hm])
  have hpoint := Numeral.span_digits hw (Numeral.ends_point (d :: (fraction ++ rest)))
  rw [List.span_eq_takeWhile_dropWhile, Prod.mk.injEq] at hpoint
  have hread : Lexeme.ofNumber c (whole ++ '.' :: d :: fraction ++ rest) =
      ⟨.float, .ofList (c :: whole ++ '.' :: d :: fraction), rest⟩ := by
    rw [List.append_assoc, List.cons_append, List.cons_append, Lexeme.ofNumber, hpoint.1,
      hpoint.2]
    change (if d.isDigit then (⟨.float, _, _⟩ : Lexeme) else _) = _
    rw [if_pos (hn.digits d (by simp)), hr.takeWhile_append rfl hf, hr.dropWhile_append rfl hf]
  apply leads_digit (hn.digits c (.head _))
  rw [hread]
  refine ⟨?_, rfl⟩
  intro p
  exact .float ⟨rfl, String.toList_ofList, hn.whole_ne, hn.fraction_ne, hn.digits⟩ hn.value

theorem Spells.leads {g : Glyph} {cs : List Char} (h : g.Spells cs) :
    ∃ c tail, cs = c :: tail ∧ g.Leads c tail rest := by
  cases h with
  | keyword k => exact leads_keyword hr k
  | sign s => exact leads_sign hr s
  | name name => exact ⟨_, _, rfl, leads_name hr name⟩
  | string text => exact ⟨_, _, rfl, leads_string hr text⟩
  | integer magnitude =>
    have hne : Nat.toDigits 10 magnitude ≠ [] := Nat.toDigits_ne_nil
    obtain ⟨c, tail, hc⟩ := List.exists_cons_of_ne_nil hne
    have hd : ∀ d ∈ c :: tail, d.isDigit := fun d hm => isDigit_of_mem_toDigits (hc ▸ hm)
    have hl := leads_integer hr hd
    rw [← hc, digitsValue_toDigits] at hl
    exact ⟨c, tail, hc, hl⟩
  | @float negative f whole fraction hn =>
    obtain ⟨c, whole, rfl⟩ := List.exists_cons_of_ne_nil hn.whole_ne
    obtain ⟨d, fraction, rfl⟩ := List.exists_cons_of_ne_nil hn.fraction_ne
    exact ⟨c, _, rfl, leads_float hr hn⟩

end Glyph

def spaced (words : List (List Char)) : List Char := words.flatMap fun word => ' ' :: word

theorem parted_spaced (words : List (List Char)) : Parted (spaced words) := by
  cases words with
  | nil => exact .nil
  | cons word words => exact .space _

theorem intercalate_cons (word : List Char) (words : List (List Char)) :
    [' '].intercalate (word :: words) = word ++ spaced words := by
  induction words generalizing word with
  | nil => simp [spaced]
  | cons next words ih =>
    rw [List.intercalate_cons_cons, ih]
    simp [spaced]

theorem exists_tokensFrom_eq {p : Position} {cs tail rest : List Char} {c : Char} {g : Glyph}
    (hs : skipLayout false cs = skipLayout false (c :: (tail ++ rest))) (h : g.Leads c tail rest) :
    ∃ t q, g.Reads t ∧ tokensFrom p cs = t :: tokensFrom q rest := by
  rw [h.starts] at hs
  rw [tokensFrom]
  split
  · next hn =>
    rw [hs] at hn
    cases hn
  · next hn =>
    rw [hs] at hn
    cases hn
    dsimp only
    rw [h.takes.rest_eq]
    exact ⟨_, _, h.takes.reads _, rfl⟩

theorem tokensFrom_spaced {gs : List Glyph} {words : List (List Char)}
    (h : List.Forall₂ Glyph.Spells gs words) (p : Position) :
    ∃ ts e, tokensFrom p (spaced words) = ts ++ [e] ∧ e.kind = .endOfText ∧
      List.Forall₂ Glyph.Reads gs ts := by
  induction h generalizing p with
  | nil => exact ⟨[], _, by rw [spaced, List.flatMap_nil, tokensFrom]; rfl, rfl, .nil⟩
  | @cons g word gs words hg _ ih =>
    obtain ⟨c, tail, rfl, hl⟩ := hg.leads (parted_spaced words)
    have hs : skipLayout false (spaced ((c :: tail) :: words)) =
        skipLayout false (c :: (tail ++ spaced words)) := rfl
    obtain ⟨t, q, ht, hts⟩ := exists_tokensFrom_eq (p := p) hs hl
    obtain ⟨ts, e, hq, he, hf⟩ := ih q
    exact ⟨t :: ts, e, by rw [hts, hq]; rfl, he, .cons ht hf⟩

theorem words_eq {text : String} {ts : List Token} {e : Token} (h : tokens text = ts ++ [e]) :
    words text = ts := by
  obtain ⟨e', he, -⟩ := tokens_eq text
  exact (List.append_inj' (he.symm.trans h) rfl).1

/-- The words of a text that spells glyphs with a space between them read as these glyphs. -/
theorem reads_words {gs : List Glyph} {spellings : List (List Char)}
    (h : List.Forall₂ Glyph.Spells gs spellings) :
    List.Forall₂ Glyph.Reads gs (words (.ofList ([' '].intercalate spellings))) := by
  have htokens (cs : List Char) : tokens (.ofList cs) = tokensFrom .start cs := by
    rw [tokens, String.toList_ofList]
  cases h with
  | nil =>
    obtain ⟨ts, e, hts, -, hf⟩ := tokensFrom_spaced .nil .start
    have hw : words (.ofList ([' '].intercalate [])) = ts := words_eq ((htokens []).trans hts)
    rw [hw]
    exact hf
  | @cons g spelling gs spellings hg h =>
    obtain ⟨c, tail, rfl, hl⟩ := hg.leads (parted_spaced spellings)
    obtain ⟨t, q, ht, hts⟩ := exists_tokensFrom_eq (p := .start) rfl hl
    obtain ⟨ts, e, hq, -, hf⟩ := tokensFrom_spaced h q
    rw [hq] at hts
    have hw : words (.ofList (c :: (tail ++ spaced spellings))) = t :: ts :=
      words_eq ((htokens _).trans hts)
    rw [intercalate_cons, List.cons_append, hw]
    exact .cons ht hf

end DocBase.Sql
