import DocBase.Proofs.Sql.Segments
import DocBase.Proofs.Value

namespace DocBase.Sql

open Grammar

/-- Digits that are all of a whole number where this stands behind them. -/
structure WholeNumber (digits rest : List Char) : Prop where
  ne_nil : digits ≠ []
  digits : ∀ c ∈ digits, c.isDigit
  ends : ∀ c ∈ rest.head?, c.isDigit = false
  no_fraction : ∀ c cs, rest = '.' :: c :: cs → c.isDigit = false

/-- How a literal has a sign: it has none, or there is a minus and maybe a gap behind it, with which
the minus starts no comment. -/
inductive MinusWritten : List Char → Bool → Prop
  | absent : MinusWritten [] false
  | present {gap : List Char} : Gap false gap → gap.head? ≠ some '-' →
    MinusWritten ('-' :: gap) true

def signedValue (negative : Bool) (digits : List Char) : Int :=
  if negative then -(digitsValue digits : Int) else digitsValue digits

section
variable {digits rest gap sign : List Char} {negative : Bool}

theorem WholeNumber.tokensFrom_eq (h : WholeNumber digits rest) (hg : Gap false gap)
    (before : List Char) :
    ∃ t : Token, t.IsInteger digits ∧
      tokensFrom (endPlace before) (gap ++ (digits ++ rest)) =
        t :: tokensFrom (endPlace (before ++ gap ++ digits)) rest := by
  have hp := Piece.integer h.ne_nil h.digits h.ends h.no_fraction
  exact ⟨_, ⟨rfl, String.toList_ofList, h.ne_nil, h.digits⟩, tokensFrom_piece hg hp⟩

theorem WholeNumber.head?_ne (h : WholeNumber digits rest) (hh : gap.head? ≠ some '-') :
    (gap ++ (digits ++ rest)).head? ≠ some '-' := by
  cases gap with
  | cons c gap => exact hh
  | nil =>
    obtain ⟨c, cs, rfl⟩ := List.exists_cons_of_ne_nil h.ne_nil
    rintro ⟨⟩
    exact absurd (h.digits '-' (.head _)) (by decide)

theorem piece_minus (h : rest.head? ≠ some '-') :
    Piece (.sign .minus) (.ofList ['-']) ['-'] rest := by
  apply Piece.sign (.symbol .minus)
  · intro d _ s hw
    have hpair := hw.pair
    simp at hpair
  · -- Two of them would start a comment.
    intro hp
    exact h (hyphens_prefix_iff.1 hp).2

theorem MinusWritten.tokensFrom_eq (hm : MinusWritten sign negative)
    (h : WholeNumber digits rest) (hg : Gap false gap) (before : List Char) :
    ∃ ms t, Minus ms negative ∧ t.IsInteger digits ∧
      tokensFrom (endPlace before) (gap ++ (sign ++ (digits ++ rest))) =
        ms ++ t :: tokensFrom (endPlace (before ++ gap ++ sign ++ digits)) rest := by
  cases hm with
  | absent =>
    obtain ⟨t, ht, he⟩ := h.tokensFrom_eq hg before
    exact ⟨[], t, .absent, ht, by simpa using he⟩
  | @present inner hi hh =>
    obtain ⟨t, ht, he⟩ := h.tokensFrom_eq hi (before ++ gap ++ ['-'])
    have hm : tokensFrom (endPlace before) (gap ++ (['-'] ++ (inner ++ (digits ++ rest)))) = _ :=
      tokensFrom_piece hg (piece_minus (h.head?_ne hh))
    rw [he] at hm
    refine ⟨[⟨.sign .minus, .ofList ['-'], placeBehind (before ++ gap)⟩], t,
      .present (spelled_one rfl), ht, ?_⟩
    simpa using hm

theorem literal_of_wholeNumber (h : WholeNumber digits rest) (hm : MinusWritten sign negative)
    (hg : Gap false gap) (before : List Char) :
    Parser.literal (tokensFrom (endPlace before) (gap ++ (sign ++ (digits ++ rest)))) =
      .ok (.ofInt (signedValue negative digits))
        (tokensFrom (endPlace (before ++ gap ++ sign ++ digits)) rest) := by
  obtain ⟨ms, t, hms, ht, he⟩ := hm.tokensFrom_eq h hg before
  have hl := Parser.reads_literal.complete (.integer hms ht)
    (.none (tokensFrom (endPlace (before ++ gap ++ sign ++ digits)) rest))
  rwa [List.append_assoc, List.singleton_append, ← he] at hl

/-- Digits that do not fit stand for what they would with a point behind them. -/
theorem ofInt_signedValue (h : ¬ Value.Fits (signedValue negative digits)) :
    Value.ofInt (signedValue negative digits) =
      .float (Numeral.toBinary64 ⟨negative, digits, none, none⟩) := by
  have hn : digitsValue digits ≠ 0 := by
    intro hz
    apply h
    cases negative <;> simp [signedValue, hz, Value.Fits]
  rw [Value.ofInt_of_not_fits h, signedValue, Binary64.ofInt_signed negative hn]
  simp [Numeral.toBinary64]

end

/-- A limit with its numbers in the order in which they stand there, and the count and the offset
that they make up. -/
inductive LimitWritten : List Token → List (List Char) → Nat → Nat → Prop
  | count {w t : Token} {digits : List Char} : w.kind = .keyword .LIMIT → t.IsInteger digits →
    LimitWritten [w, t] [digits] (digitsValue digits) 0
  | offset {w t o u : Token} {count offset : List Char} : w.kind = .keyword .LIMIT →
    t.IsInteger count → o.kind = .keyword .OFFSET → u.IsInteger offset →
    LimitWritten [w, t, o, u] [count, offset] (digitsValue count) (digitsValue offset)
  | comma {w t c u : Token} {offset count : List Char} : w.kind = .keyword .LIMIT →
    t.IsInteger offset → c.kind = .sign .comma → u.IsInteger count →
    LimitWritten [w, t, c, u] [offset, count] (digitsValue count) (digitsValue offset)

def tooLarge (digits : List Char) : Bool := decide (2 ^ 64 ≤ digitsValue digits)

theorem tooLarge_iff {digits : List Char} : tooLarge digits ↔ UInt64.size ≤ digitsValue digits :=
  decide_eq_true_iff

theorem tooLarge_eq_false_iff {digits : List Char} :
    tooLarge digits = false ↔ digitsValue digits < UInt64.size := by
  rw [← Bool.not_eq_true, tooLarge_iff, Nat.not_le]

section
variable {cs rest us : List Token} {numbers : List (List Char)} {count offset : Nat}
  {large : List Char}

theorem LimitWritten.limited (h : LimitWritten cs numbers count offset)
    (hn : numbers.find? tooLarge = none) :
    ∃ limit : Limit, limit.count.toNat = count ∧ limit.offset.toNat = offset ∧
      Limited cs (some limit) := by
  simp only [List.find?_eq_none, Bool.not_eq_true, tooLarge_eq_false_iff] at hn
  cases h with
  | count hw ht =>
    have hd := hn _ (.head _)
    exact ⟨_, UInt64.toNat_ofNat_of_lt' hd, rfl, .count (spelled_one hw) (.mk ht hd)⟩
  | offset hw ht ho hu =>
    have hd := hn _ (.head _)
    have he := hn _ (.tail _ (.head _))
    exact ⟨_, UInt64.toNat_ofNat_of_lt' hd, UInt64.toNat_ofNat_of_lt' he,
      .offset (spelled_one hw) (.mk ht hd) (spelled_one ho) (.mk hu he)⟩
  | comma hw ht hc hu =>
    have hd := hn _ (.head _)
    have he := hn _ (.tail _ (.head _))
    exact ⟨_, UInt64.toNat_ofNat_of_lt' he, UInt64.toNat_ofNat_of_lt' hd,
      .comma (spelled_one hw) (.mk ht hd) (spelled_one hc) (.mk hu he)⟩

theorem LimitWritten.clear (h : LimitWritten cs numbers count offset) (rest : List Token) :
    Clear Parser.unlimitedStops (cs ++ rest) := by
  cases h with
  | count hw | offset hw | comma hw => exact .cons (by simp [hw])

namespace Parser

theorem unsigned_of_tooLarge {t : Token} {digits : List Char} (ht : t.IsInteger digits)
    (h : tooLarge digits) (rest : List Token) :
    unsigned (t :: rest) = .error (.invalidLiteral (.ofList digits)) (t :: rest) := by
  obtain ⟨hk, hd, -⟩ := ht
  have hl : t.literal = .ofList digits := by rw [← hd, String.ofList_toList]
  rw [unsigned, current_bind]
  dsimp only [List.head?_cons]
  rw [if_pos hk, hd, if_neg (Nat.not_lt.2 (tooLarge_iff.1 h)), hl]
  rfl

theorem unsigned_of_fits {t : Token} {digits : List Char} (ht : t.IsInteger digits)
    (h : tooLarge digits = false) (rest : List Token) :
    unsigned (t :: rest) = .ok (.ofNat (digitsValue digits)) rest :=
  reads_unsigned.complete (.mk ht (tooLarge_eq_false_iff.1 h)) (.none rest)

theorem limit_of_keyword {w : Token} (hw : w.kind = .keyword .LIMIT) (ts : List Token) :
    limit (w :: ts) = (do
      let first ← unsigned
      if ← skip (.sign .comma) then
        let count ← unsigned
        return some ⟨count, first⟩
      else if ← skip (.keyword .OFFSET) then
        let offset ← unsigned
        return some ⟨first, offset⟩
      else return some ⟨first, 0⟩ : Parser (Option Limit)) ts := by
  rw [limit, bind_of_ok (skip_cons (.keyword .LIMIT) hw ts)]
  rfl

theorem limit_of_first_tooLarge {w t : Token} {digits : List Char}
    (hw : w.kind = .keyword .LIMIT) (ht : t.IsInteger digits) (h : tooLarge digits)
    (rest : List Token) :
    limit (w :: t :: rest) = .error (.invalidLiteral (.ofList digits)) (t :: rest) := by
  rw [limit_of_keyword hw]
  exact bind_of_error (unsigned_of_tooLarge ht h rest)

theorem limit_of_second_tooLarge {w t m u : Token} {first second : List Char}
    (hw : w.kind = .keyword .LIMIT) (ht : t.IsInteger first)
    (hm : m.kind = .sign .comma ∨ m.kind = .keyword .OFFSET) (hu : u.IsInteger second)
    (hf : tooLarge first = false) (hs : tooLarge second) (rest : List Token) :
    limit (w :: t :: m :: u :: rest) =
      .error (.invalidLiteral (.ofList second)) (u :: rest) := by
  have hsecond := unsigned_of_tooLarge hu hs rest
  rw [limit_of_keyword hw, bind_of_ok (unsigned_of_fits ht hf _)]
  rcases hm with hm | hm
  · rw [bind_of_ok (skip_cons (.sign .comma) hm _)]
    exact bind_of_error hsecond
  · have hc : Clear [.sign .comma] (m :: u :: rest) := .cons (by simp [hm])
    rw [bind_of_ok (skip_clear (.sign .comma) hc), if_neg Bool.false_ne_true,
      bind_of_ok (skip_cons (.keyword .OFFSET) hm _)]
    exact bind_of_error hsecond

theorem limit_of_two {w t m u : Token} {first second : List Char}
    (hw : w.kind = .keyword .LIMIT) (ht : t.IsInteger first)
    (hm : m.kind = .sign .comma ∨ m.kind = .keyword .OFFSET) (hu : u.IsInteger second)
    (hn : [first, second].find? tooLarge = some large) (rest : List Token) :
    ∃ left, limit (w :: t :: m :: u :: rest) = .error (.invalidLiteral (.ofList large)) left := by
  cases hf : tooLarge first with
  | true =>
    rw [List.find?_cons_of_pos hf] at hn
    cases hn
    exact ⟨_, limit_of_first_tooLarge hw ht hf _⟩
  | false =>
    rw [List.find?_cons_of_neg (by simp [hf])] at hn
    obtain rfl := List.mem_singleton.1 (List.mem_of_find?_eq_some hn)
    exact ⟨_, limit_of_second_tooLarge hw ht hm hu hf (List.find?_some hn) rest⟩

theorem limit_of_tooLarge (h : LimitWritten cs numbers count offset)
    (hn : numbers.find? tooLarge = some large) (rest : List Token) :
    ∃ left, limit (cs ++ rest) = .error (.invalidLiteral (.ofList large)) left := by
  cases h with
  | count hw ht =>
    obtain rfl := List.mem_singleton.1 (List.mem_of_find?_eq_some hn)
    exact ⟨_, limit_of_first_tooLarge hw ht (List.find?_some hn) rest⟩
  | offset hw ht ho hu => exact limit_of_two hw ht (.inr ho) hu hn rest
  | comma hw ht hc hu => exact limit_of_two hw ht (.inl hc) hu hn rest

theorem select_of_limit {s : Select} {left : List Token} {e : ParseError}
    (hs : Sentence us (.select s)) (hnone : s.limit = none) (hc : Clear unlimitedStops rest)
    (hl : limit rest = .error e left) : select (us ++ rest) = .error e left := by
  rw [select_eq, bind_of_ok (reads_unlimited.complete ⟨hs, hnone⟩ hc)]
  exact bind_of_error hl

theorem statement_of_select {s : Select} {left : List Token} {e : ParseError}
    (hs : Sentence us (.select s)) (he : select (us ++ rest) = .error e left) :
    statement (us ++ rest) = .error e left := by
  obtain ⟨t, ts, rfl, hk⟩ := sentence_starts hs
  rw [statement]
  apply bind_of_error
  rw [List.cons_append, statementBody_of_keyword hk, firstWord, bodyOf, map_eq_pure_bind]
  exact bind_of_error he

end Parser

variable {text : String} {s : Select} {tail : List Token}

theorem parse_of_tooLarge (hw : words text = us ++ (cs ++ tail)) (hs : Sentence us (.select s))
    (hnone : s.limit = none) (h : LimitWritten cs numbers count offset)
    (hn : numbers.find? tooLarge = some large) :
    parse text = .error (.invalidLiteral (.ofList large)) := by
  obtain ⟨e, he, -⟩ := tokens_eq text
  -- The query is read up to its limit, so all parsers around pass on what the limit fails with.
  obtain ⟨left, hl⟩ := Parser.limit_of_tooLarge h hn (tail ++ [e])
  have hp := Parser.statement_of_select hs
    (Parser.select_of_limit hs hnone (h.clear (tail ++ [e])) hl)
  have ht : tokens text = us ++ (cs ++ (tail ++ [e])) := by
    rw [he, hw, List.append_assoc, List.append_assoc]
  rw [parse, ht, hp]

theorem parse_of_limit (hw : words text = us ++ (cs ++ tail)) (hs : Sentence us (.select s))
    (hnone : s.limit = none) (h : LimitWritten cs numbers count offset)
    (hn : numbers.find? tooLarge = none) (htail : tail = [] ∨ Spelled [.sign .semicolon] tail) :
    ∃ limit : Limit, limit.count.toNat = count ∧ limit.offset.toNat = offset ∧
      parse text = .ok (.select { s with limit := some limit }) := by
  obtain ⟨limit, hc, ho, hl⟩ := h.limited hn
  refine ⟨limit, hc, ho, parse_of_derives ?_⟩
  have hsel : Sentence (us ++ cs) (.select { s with limit := some limit }) :=
    Parser.sentence_select_iff.2 ⟨us, cs, rfl, by rwa [← hnone], hl⟩
  rw [hw, ← List.append_assoc]
  rcases htail with rfl | hsemi
  · rw [List.append_nil]
    exact .plain hsel
  · exact .terminated hsel hsemi

end

/-- Digits are one token in all places, and with or without a minus before them they are the literal
of the integer that they write if that fits, and else of the float nearest to it. A query with a
limit behind it is a statement with just these numbers if they fit 64 bits without a sign, and else
the first one that does not is refused. -/
theorem whole_numbers_exact_up_to_limits :
    (∀ digits rest gap before : List Char, WholeNumber digits rest → Gap false gap →
        (∃ t : Token, t.IsInteger digits ∧
          tokensFrom (endPlace before) (gap ++ (digits ++ rest)) =
            t :: tokensFrom (endPlace (before ++ gap ++ digits)) rest) ∧
        ∀ (sign : List Char) (negative : Bool), MinusWritten sign negative →
          let read :=
            Parser.literal (tokensFrom (endPlace before) (gap ++ (sign ++ (digits ++ rest))))
          let behind := tokensFrom (endPlace (before ++ gap ++ sign ++ digits)) rest
          (Value.Fits (signedValue negative digits) → ∃ n : Int64,
            n.toInt = signedValue negative digits ∧ read = .ok (.integer n) behind ∧
              (Value.integer n).stored = .integer n) ∧
          (¬ Value.Fits (signedValue negative digits) →
            read = .ok (.float (Numeral.toBinary64 ⟨negative, digits, none, none⟩)) behind)) ∧
    ∀ (text : String) (us cs tail : List Token) (s : Select) (numbers : List (List Char))
      (count offset : Nat), words text = us ++ (cs ++ tail) → Sentence us (.select s) →
      s.limit = none → LimitWritten cs numbers count offset →
        (∀ large, numbers.find? tooLarge = some large →
          parse text = .error (.invalidLiteral (.ofList large))) ∧
        (numbers.find? tooLarge = none → tail = [] ∨ Spelled [.sign .semicolon] tail →
          ∃ limit : Limit, limit.count.toNat = count ∧ limit.offset.toNat = offset ∧
            parse text = .ok (.select { s with limit := some limit })) := by
  constructor
  · intro digits rest gap before h hg
    refine ⟨h.tokensFrom_eq hg before, ?_⟩
    intro sign negative hm read behind
    have hread : read = .ok (.ofInt (signedValue negative digits)) behind :=
      literal_of_wholeNumber h hm hg before
    constructor
    · intro hfits
      obtain ⟨n, hn, hi⟩ := Value.ofInt_of_fits hfits
      exact ⟨n, hn, hi ▸ hread, rfl⟩
    · intro hfits
      exact ofInt_signedValue hfits ▸ hread
  · intro text us cs tail s numbers count offset hw hs hnone h
    constructor
    · intro large hn
      exact parse_of_tooLarge hw hs hnone h hn
    · intro hn htail
      exact parse_of_limit hw hs hnone h hn htail

theorem whole_numbers_exact_up_to_limits_of_neighbours :
    WholeNumber "9223372036854775808".toList [] ∧ MinusWritten ['-', ' '] true ∧
      (∃ n : Int64, n.toInt = -9223372036854775808 ∧
        Parser.literal (tokensFrom (endPlace []) "- 9223372036854775808".toList) =
          .ok (.integer n) (tokensFrom (endPlace "- 9223372036854775808".toList) []) ∧
          (Value.integer n).stored = .integer n) ∧
      Parser.literal (tokensFrom (endPlace []) "9223372036854775808".toList) =
        .ok (.float (Numeral.toBinary64 ⟨false, "9223372036854775808".toList, none, none⟩))
          (tokensFrom (endPlace "9223372036854775808".toList) []) ∧
      (∃ limit : Limit, limit.count.toNat = 18446744073709551615 ∧ limit.offset.toNat = 7 ∧
        parse "SELECT * FROM t LIMIT 007, 18446744073709551615;" =
          .ok (.select ⟨.all, "t", none, [], some limit⟩)) ∧
      parse "SELECT * FROM t LIMIT 7 OFFSET 18446744073709551616" =
        .error (.invalidLiteral "18446744073709551616") := by
  have hd : WholeNumber "9223372036854775808".toList [] :=
    ⟨by decide, List.all_eq_true.1 (by decide), nofun, nofun⟩
  have hm : MinusWritten ['-', ' '] true := .present (.blank rfl .nil) (by decide)
  have hliteral := (whole_numbers_exact_up_to_limits.1 _ _ _ [] hd .nil).2
  let us : List Token :=
    [⟨.keyword .SELECT, "SELECT", ⟨1, 1⟩⟩, ⟨.sign .asterisk, "*", ⟨1, 8⟩⟩,
      ⟨.keyword .FROM, "FROM", ⟨1, 10⟩⟩, ⟨.identifier "t", "t", ⟨1, 15⟩⟩]
  have hs : Sentence us (.select ⟨.all, "t", none, [], none⟩) :=
    .select (spelled_one rfl) (.all (spelled_one rfl)) (spelled_one rfl) (.mk rfl) .absent .absent
      .absent
  refine ⟨hd, hm, ?_, ?_, ?_, ?_⟩
  · exact (hliteral _ _ hm).1 (by decide +kernel)
  · exact (hliteral _ _ .absent).2 (by decide +kernel)
  · have hw : words "SELECT * FROM t LIMIT 007, 18446744073709551615;" =
        us ++ ([⟨.keyword .LIMIT, "LIMIT", ⟨1, 17⟩⟩, ⟨.integer, "007", ⟨1, 23⟩⟩,
          ⟨.sign .comma, ",", ⟨1, 26⟩⟩, ⟨.integer, "18446744073709551615", ⟨1, 28⟩⟩] ++
            [⟨.sign .semicolon, ";", ⟨1, 48⟩⟩]) := by decide +kernel
    exact (whole_numbers_exact_up_to_limits.2 _ _ _ _ _ _ _ _ hw hs rfl
      (.comma rfl ⟨rfl, rfl, by decide, List.all_eq_true.1 (by decide)⟩ rfl
        ⟨rfl, rfl, by decide, List.all_eq_true.1 (by decide)⟩)).2
        (by decide +kernel) (.inr (spelled_one rfl))
  · have hw : words "SELECT * FROM t LIMIT 7 OFFSET 18446744073709551616" =
        us ++ ([⟨.keyword .LIMIT, "LIMIT", ⟨1, 17⟩⟩, ⟨.integer, "7", ⟨1, 23⟩⟩,
          ⟨.keyword .OFFSET, "OFFSET", ⟨1, 25⟩⟩, ⟨.integer, "18446744073709551616", ⟨1, 32⟩⟩] ++
            []) := by decide +kernel
    exact (whole_numbers_exact_up_to_limits.2 _ _ _ _ _ _ _ _ hw hs rfl
      (.offset rfl ⟨rfl, rfl, by decide, List.all_eq_true.1 (by decide)⟩ rfl
        ⟨rfl, rfl, by decide, List.all_eq_true.1 (by decide)⟩)).1 _ (by decide +kernel)

end DocBase.Sql
