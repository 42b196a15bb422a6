import DocBase.Proofs.Numeral
import DocBase.Proofs.Sql.Reading
import DocBase.Sql.Parser.Statement

namespace DocBase.Sql.Parser

open Grammar

variable {α β : Type}

theorem current_bind (f : Option Token → Parser β) (ts : List Token) :
    (current >>= f) ts = f ts.head? ts := rfl

theorem currentKind_bind (f : Option TokenKind → Parser β) (ts : List Token) :
    (currentKind >>= f) ts = f (ts.head?.map Token.kind) ts := rfl

theorem unexpected_ne_ok {ts rest : List Token} {a : α} :
    (do throw (← unexpected) : Parser α) ts ≠ .ok a rest := by
  cases ts <;> exact nofun

theorem reads_identifier : Reads identifier Name [] where
  sound {ts} _ _ _ h := by
    rw [identifier, current_bind] at h
    cases ts with
    | nil => cases h
    | cons t us =>
      dsimp only [List.head?_cons] at h
      cases hk : t.kind with
      | identifier name =>
        rw [hk] at h
        cases h
        exact ⟨[t], rfl, .mk hk⟩
      | _ =>
        rw [hk] at h
        cases h
  complete h _ := by
    obtain ⟨hk⟩ := h
    rw [identifier, current_bind]
    dsimp only [List.head?_cons, List.cons_append]
    rw [hk]
    rfl

theorem reads_columnRef : Reads columnRef Column [.sign .dot] := by
  have hq (first : String) :=
    Reads.optional (.sign .dot) (reads_identifier.map fun name => ⟨some first, name⟩)
      (⟨none, first⟩ : ColumnRef)
  apply (reads_identifier.andThen hq).mono
  · intro _ _ h
    obtain ⟨hn, ⟨ht, _, hu, rfl⟩ | ⟨rfl, rfl⟩⟩ := h
    · exact .qualified hn (spelled_one ht) hu
    · rw [List.append_nil]
      exact .plain hn
  · intro _ _ h
    rcases h with hn | ⟨hn, hd, hu⟩
    · exact .ending hn (.inr ⟨rfl, rfl⟩)
    · exact .mk hn (.inl (hd.marked ⟨_, hu, rfl⟩))

theorem number_integer {literal : String} {negative : Bool} {digits : List Char}
    (hl : literal.toList = (if negative then ['-'] else []) ++ digits) (hne : digits ≠ [])
    (hd : ∀ c ∈ digits, c.isDigit) : number .integer literal =
      pure (.ofInt (if negative then -(digitsValue digits : Int) else digitsValue digits)) := by
  rw [number, hl, Numeral.ofText?_integer negative hne hd]
  rfl

theorem number_float {literal : String} {negative : Bool} {whole fraction : List Char}
    (hl : literal.toList = (if negative then ['-'] else []) ++ (whole ++ '.' :: fraction))
    (hne : whole ≠ []) (hd : ∀ c ∈ whole ++ fraction, c.isDigit) : number .float literal =
      pure (.float (.ofDecimal negative (digitsValue (whole ++ fraction)) (-fraction.length))) := by
  have hn : (0 : Int) - fraction.length = -fraction.length := Int.zero_sub _
  rw [number, hl, Numeral.ofText?_float negative hne (fun c hc => hd c (by simp [hc]))
    fun c hc => hd c (by simp [hc])]
  simp [Numeral.toBinary64, hn]

inductive Magnitude (negative : Bool) : Phrase Value
  | integer {t : Token} {digits : List Char} : t.IsInteger digits →
    Magnitude negative [t]
      (.ofInt (if negative then -(digitsValue digits : Int) else digitsValue digits))
  | float {t : Token} {whole fraction : List Char} : t.IsFloat whole fraction →
    Magnitude negative [t]
      (.float (.ofDecimal negative (digitsValue (whole ++ fraction)) (-fraction.length)))

theorem number_of_magnitude {negative : Bool} {t : Token} {value : Value}
    (h : Magnitude negative [t] value) :
    number t.kind ((if negative then "-" else "") ++ t.literal) = pure value := by
  have hs : (if negative then "-" else "" : String).toList =
      if negative then ['-'] else [] := by cases negative <;> rfl
  cases h with
  | integer hi =>
    obtain ⟨hk, hl, hne, hd⟩ := hi
    rw [hk]
    exact number_integer (by rw [String.toList_append, hs, hl]) hne hd
  | float hf =>
    obtain ⟨hk, hl, hw, _, hd⟩ := hf
    rw [hk]
    exact number_float (by rw [String.toList_append, hs, hl]) hw hd

theorem exists_magnitude {t : Token} (h : t.Lexed) (negative : Bool)
    (hk : t.kind = .integer ∨ t.kind = .float) : ∃ value, Magnitude negative [t] value := by
  rcases hk with hk | hk
  · obtain ⟨digits, hi⟩ := h.1 hk
    exact ⟨_, .integer hi⟩
  · obtain ⟨whole, fraction, hf⟩ := h.2 hk
    exact ⟨_, .float hf⟩

theorem Magnitude.kind {negative : Bool} {t : Token} {value : Value}
    (h : Magnitude negative [t] value) : t.kind = .integer ∨ t.kind = .float := by
  cases h with
  | integer hi => exact .inl hi.1
  | float hf => exact .inr hf.1

theorem negated_of_magnitude {t : Token} {value : Value} (h : Magnitude true [t] value)
    (ts : List Token) : negated (t :: ts) = .ok value ts := by
  have hn := number_of_magnitude h
  rw [if_pos rfl] at hn
  rw [negated, current_bind]
  dsimp only [List.head?_cons]
  rcases h.kind with hk | hk
  all_goals
    rw [hk] at hn ⊢
    dsimp only
    rw [hn]
    rfl

theorem literal_of_magnitude {t : Token} {value : Value} (h : Magnitude false [t] value)
    (ts : List Token) : literal (t :: ts) = .ok value ts := by
  have hn := number_of_magnitude h
  rw [if_neg Bool.false_ne_true, String.empty_append] at hn
  rw [literal, current_bind]
  dsimp only [List.head?_cons]
  rcases h.kind with hk | hk
  all_goals
    rw [hk] at hn ⊢
    dsimp only
    rw [hn]
    rfl

theorem reads_negated : Reads negated (Magnitude true) [] where
  sound {ts} _ _ hl h := by
    cases ts with
    | nil => cases h
    | cons t us =>
      cases hk : t.kind with
      | integer =>
        obtain ⟨value, hv⟩ := exists_magnitude (hl t (.head _)) true (.inl hk)
        rw [negated_of_magnitude hv] at h
        cases h
        exact ⟨[t], rfl, hv⟩
      | float =>
        obtain ⟨value, hv⟩ := exists_magnitude (hl t (.head _)) true (.inr hk)
        rw [negated_of_magnitude hv] at h
        cases h
        exact ⟨[t], rfl, hv⟩
      | _ =>
        rw [negated, current_bind] at h
        dsimp only [List.head?_cons] at h
        rw [hk] at h
        cases h
  complete h _ := by
    cases h with
    | integer hi => exact negated_of_magnitude (.integer hi) _
    | float hf => exact negated_of_magnitude (.float hf) _

theorem literal_of_magnitude_behind {minus : Token} {ts : List Token} {rest : List Token}
    {value : Value} (hm : minus.kind = .sign .minus) (h : Magnitude true ts value) :
    literal (minus :: (ts ++ rest)) = .ok value rest := by
  rw [literal, current_bind]
  dsimp only [List.head?_cons]
  rw [hm]
  exact reads_negated.complete h (.none rest)

theorem literal_of_magnitude_signed {negative : Bool} {signs ts : List Token} {value : Value}
    (hs : Minus signs negative) (h : Magnitude negative ts value) (rest : List Token) :
    literal (signs ++ ts ++ rest) = .ok value rest := by
  cases hs with
  | absent =>
    cases h with
    | integer hi => exact literal_of_magnitude (.integer hi) rest
    | float hf => exact literal_of_magnitude (.float hf) rest
  | present hs =>
    obtain ⟨minus, rfl, hm⟩ := hs.one
    exact literal_of_magnitude_behind hm h

theorem Magnitude.literal {negative : Bool} {signs ts : List Token} {value : Value}
    (hs : Minus signs negative) (h : Magnitude negative ts value) :
    Literal (signs ++ ts) value := by
  cases h with
  | integer hi => exact .integer hs hi
  | float hf => exact .float hs hf

theorem reads_literal : Reads literal Literal [] where
  sound {ts} rest a hl h := by
    cases ts with
    | nil => cases h
    | cons t us =>
      by_cases hn : t.kind = .integer ∨ t.kind = .float
      · obtain ⟨value, hv⟩ := exists_magnitude (hl t (.head _)) false hn
        rw [literal_of_magnitude hv] at h
        cases h
        exact ⟨[t], rfl, hv.literal .absent⟩
      rw [literal, current_bind] at h
      dsimp only [List.head?_cons] at h
      cases hk : t.kind with
      | integer => exact absurd (.inl hk) hn
      | float => exact absurd (.inr hk) hn
      | string text =>
        rw [hk] at h
        cases h
        exact ⟨[t], rfl, .string hk⟩
      | keyword k =>
        rw [hk] at h
        cases k with
        | NULL =>
          cases h
          exact ⟨[t], rfl, .null (spelled_one hk)⟩
        | TRUE =>
          cases h
          exact ⟨[t], rfl, .true (spelled_one hk)⟩
        | FALSE =>
          cases h
          exact ⟨[t], rfl, .false (spelled_one hk)⟩
        | _ => cases h
      | sign s =>
        rw [hk] at h
        cases s with
        | minus =>
          obtain ⟨used, rfl, hu⟩ := reads_negated.sound (fun t ht => hl t (.tail _ ht)) h
          exact ⟨t :: used, rfl, hu.literal (.present (spelled_one hk))⟩
        | _ => cases h
      | _ =>
        rw [hk] at h
        cases h
  complete h _ := by
    cases h with
    | integer hs hi => exact literal_of_magnitude_signed hs (.integer hi) _
    | float hs hf => exact literal_of_magnitude_signed hs (.float hf) _
    | string hk =>
      rw [literal, current_bind]
      dsimp only [List.head?_cons, List.cons_append]
      rw [hk]
      rfl
    | null hs | true hs | false hs =>
      obtain ⟨t, rfl, hk⟩ := hs.one
      rw [literal, current_bind]
      dsimp only [List.head?_cons, List.cons_append]
      rw [hk]
      rfl

inductive Symbol : Phrase Operator
  | mk {t : Token} {operator : Operator} : Operator.ofKind? t.kind = some operator →
    Symbol [t] operator

theorem Symbol.comparator {ts : List Token} {operator : Operator} (h : Symbol ts operator) :
    Comparator ts operator := by
  obtain @⟨t, _, ho⟩ := h
  cases hk : t.kind with
  | sign s =>
    rw [hk] at ho
    cases s with
    | equal => cases ho; exact .equal (spelled_one hk)
    | notEqual => cases ho; exact .notEqual (spelled_one hk)
    | less => cases ho; exact .less (spelled_one hk)
    | greater => cases ho; exact .greater (spelled_one hk)
    | lessEqual => cases ho; exact .lessEqual (spelled_one hk)
    | greaterEqual => cases ho; exact .greaterEqual (spelled_one hk)
    | _ => cases ho
  | _ =>
    rw [hk] at ho
    cases ho

theorem symbol_of_spelled {ts : List Token} {k : TokenKind} {operator : Operator}
    (hs : Spelled [k] ts) (ho : Operator.ofKind? k = some operator) : Symbol ts operator := by
  obtain ⟨t, rfl, rfl⟩ := hs.one
  exact .mk ho

theorem Symbol.clear {ts rest : List Token} {operator : Operator} (h : Symbol ts operator) :
    Clear [.keyword .IS] (ts ++ rest) := by
  obtain ⟨ho⟩ := h
  apply Clear.cons
  intro hm
  rw [List.mem_singleton.1 hm] at ho
  cases ho

theorem reads_symbol (column : ColumnRef) :
    Reads (do
      match ← current with
      | some t =>
        match comparisonSign t.kind with
        | .ok operator =>
          advance
          return operator
        | .error _ =>
          if t.kind = .endOfText then throw .endOfInput
          else
            throw (.invalidSyntax ("Expected a comparison operator after column '" ++ column.name ++
              "', found " ++ t.show))
      | none => throw .endOfInput) Symbol [] where
  sound {ts} rest a _ h := by
    rw [current_bind] at h
    cases ts with
    | nil => cases h
    | cons t us =>
      dsimp only [List.head?_cons] at h
      cases ho : comparisonSign t.kind with
      | ok operator =>
        rw [ho] at h
        cases h
        exact ⟨[t], rfl, .mk (comparisonSign_eq_ok_iff.1 ho)⟩
      | error e =>
        rw [ho] at h
        dsimp only at h
        split at h <;> cases h
  complete h _ := by
    obtain ⟨ho⟩ := h
    rw [current_bind]
    dsimp only [List.head?_cons, List.cons_append]
    rw [comparisonSign_eq_ok_iff.2 ho]
    rfl

theorem reads_operator (column : ColumnRef) :
    Reads (operator column) Comparator [.keyword .NOT] := by
  have hi := Reads.optional (.keyword .NOT) (Reads.pure Operator.isNot) .is
  refine (Reads.skipElse (.keyword .IS) hi (reads_symbol column).free fun h _ => h.clear).mono
    ?_ ?_
  · intro _ _ h
    rcases h with ⟨hi, ⟨hn, rfl, rfl⟩ | ⟨rfl, rfl⟩⟩ | h
    · exact .isNot (spelled_two hi hn)
    · exact .is (spelled_one hi)
    · exact h.comparator
  · intro ts _ h
    rcases h with hs | hs | hs | hs | hs | hs | hs | hs
    case is =>
      obtain ⟨t, rfl, hi⟩ := hs.one
      exact .inl (.mk hi (.inr ⟨rfl, rfl⟩))
    case isNot =>
      obtain ⟨i, us, rfl, hi, hus⟩ := hs.uncons
      obtain ⟨n, rfl, hn⟩ := hus.one
      exact .inl (.mk hi (.inl (.mk hn ⟨rfl, rfl⟩)))
    all_goals exact .inr (symbol_of_spelled hs rfl)

theorem clear_of_literal {ts rest : List Token} {value : Value} (h : Literal ts value) :
    Clear [.keyword .NOT] (ts ++ rest) := by
  cases h with
  | integer hm hi =>
    cases hm with
    | absent => exact .cons (by simp [hi.1])
    | present hs => rw [List.append_assoc]; exact hs.clear (by simp)
  | float hm hf =>
    cases hm with
    | absent => exact .cons (by simp [hf.1])
    | present hs => rw [List.append_assoc]; exact hs.clear (by simp)
  | string hk => exact .cons (by simp [hk])
  | null hs | true hs | false hs => exact hs.clear (by simp)

def Behind (item : Phrase α) : Phrase (List α) := fun ts as =>
  Marked (.sign .comma) (Listed item) ts as ∨ Silent [] ts as

theorem listed_iff {item : Phrase α} {ts : List Token} {as : List α} : Listed item ts as ↔
    ∃ us vs b bs, ts = us ++ vs ∧ as = b :: bs ∧ item us b ∧ Behind item vs bs := by
  constructor
  · intro h
    rcases h with hi | ⟨hi, hc, hl⟩
    · exact ⟨_, [], _, [], (List.append_nil _).symm, rfl, hi, .inr ⟨rfl, rfl⟩⟩
    · exact ⟨_, _, _, _, rfl, rfl, hi, .inl (hc.marked hl)⟩
  · intro h
    obtain ⟨us, vs, b, bs, rfl, rfl, hi, ⟨hc, hl⟩ | ⟨rfl, rfl⟩⟩ := h
    · exact .more hi (spelled_one hc) hl
    · rw [List.append_nil]
      exact .one hi

variable {item : Parser α} {P : Phrase α} {stops : List TokenKind}

theorem commaTail_sound (h : Reads item P stops) (fuel : Nat) {ts rest : List Token}
    {as : List α} (hl : ∀ t ∈ ts, t.Lexed) (he : commaTail item fuel ts = .ok as rest) :
    ∃ used, ts = used ++ rest ∧ Behind P used as := by
  induction fuel generalizing ts as with
  | zero =>
    cases he
    exact ⟨[], rfl, .inr ⟨rfl, rfl⟩⟩
  | succ fuel ih =>
    rw [commaTail] at he
    obtain ⟨b, mid, hb, he₁⟩ := bind_eq_ok he
    rcases skip_eq_ok (.sign .comma) hb with ⟨rfl, t, rfl, ht⟩ | ⟨rfl, rfl, _⟩
    · obtain ⟨a, mid₂, ha, he₂⟩ := bind_eq_ok he₁
      obtain ⟨us, rfl, hu⟩ := h.sound (fun t ht => hl t (.tail _ ht)) ha
      obtain ⟨bs, mid₃, hbs, he₃⟩ := bind_eq_ok he₂
      obtain ⟨rfl, rfl⟩ := pure_eq_ok he₃
      obtain ⟨vs, rfl, hv⟩ := ih (fun t ht => hl t (.tail _ (List.mem_append_right us ht))) hbs
      refine ⟨t :: (us ++ vs), by rw [List.cons_append, List.append_assoc], .inl (.mk ht ?_)⟩
      exact listed_iff.2 ⟨us, vs, a, bs, rfl, rfl, hu, hv⟩
    · obtain ⟨rfl, rfl⟩ := pure_eq_ok he₁
      exact ⟨[], rfl, .inr ⟨rfl, rfl⟩⟩

theorem Behind.clear {us rest : List Token} {as : List α} (h : Behind P us as)
    (hs : .sign .comma ∉ stops) (hr : Clear stops rest) : Clear stops (us ++ rest) :=
  clear_of_optional h hs hr

theorem commaTail_complete (h : Reads item P stops) (hs : .sign .comma ∉ stops) (fuel : Nat)
    {used rest : List Token} {as : List α} (hu : Behind P used as) (hf : used.length ≤ fuel)
    (hr : Clear (.sign .comma :: stops) rest) :
    commaTail item fuel (used ++ rest) = .ok as rest := by
  have hi : Clear stops rest := hr.weaken (List.subset_cons_self _ _)
  induction fuel generalizing used as with
  | zero =>
    rcases hu with ⟨_, _⟩ | ⟨rfl, rfl⟩
    · cases hf
    · rfl
  | succ fuel ih =>
    rw [commaTail]
    rcases hu with ⟨ht, hl⟩ | ⟨rfl, rfl⟩
    · obtain ⟨us, vs, b, bs, rfl, rfl, hb, hv⟩ := listed_iff.1 hl
      rw [List.cons_append, bind_of_ok (skip_cons (.sign .comma) ht _), if_pos rfl,
        List.append_assoc, bind_of_ok (h.complete hb (hv.clear hs hi))]
      have hlen : vs.length ≤ fuel := by
        simp only [List.length_cons, List.length_append] at hf
        omega
      rw [bind_of_ok (ih hv hlen)]
      rfl
    · have hc : Clear [.sign .comma] rest := hr.weaken (by simp)
      rw [List.nil_append, bind_of_ok (skip_clear (.sign .comma) hc)]
      rfl

theorem reads_commaList (h : Reads item P stops) (hs : .sign .comma ∉ stops) :
    Reads (commaList item) (Listed P) (.sign .comma :: stops) where
  sound hl he := by
    rw [commaList] at he
    obtain ⟨a, mid, ha, he₁⟩ := bind_eq_ok he
    obtain ⟨us, rfl, hu⟩ := h.sound hl ha
    change (commaTail item mid.length >>= fun bs => pure (a :: bs)) mid = _ at he₁
    obtain ⟨bs, mid₂, hb, he₂⟩ := bind_eq_ok he₁
    obtain ⟨vs, rfl, hv⟩ := commaTail_sound h _ (fun t ht => hl t (List.mem_append_right us ht)) hb
    obtain ⟨rfl, rfl⟩ := pure_eq_ok he₂
    exact ⟨us ++ vs, (List.append_assoc _ _ _).symm, listed_iff.2 ⟨us, vs, a, bs, rfl, rfl, hu, hv⟩⟩
  complete {_ rest _} hu hr := by
    obtain ⟨us, vs, b, bs, rfl, rfl, hb, hv⟩ := listed_iff.1 hu
    have hi : Clear stops rest := hr.weaken (List.subset_cons_self _ _)
    rw [commaList, List.append_assoc, bind_of_ok (h.complete hb (hv.clear hs hi))]
    have hlen : vs.length ≤ (vs ++ rest).length := by simp
    have ht := commaTail_complete h hs _ hv hlen hr
    change (commaTail item (vs ++ rest).length >>= fun bs => pure (b :: bs)) (vs ++ rest) = _
    rw [bind_of_ok ht]
    rfl

theorem reads_parenthesized (h : Reads item P stops) (hs : .sign .comma ∉ stops)
    (hp : .sign .rightParen ∉ stops) :
    Reads (parenthesized item) (Parenthesized (Listed P)) [] := by
  have hb (items : List α) := Reads.expect (.sign .rightParen) (Reads.pure items)
  have hr := (reads_commaList h hs).bind hb fun hm _ => hm.clear (by simpa using hp)
  apply (Reads.expect (.sign .leftParen) hr).mono
  · intro _ _ h
    obtain ⟨hl, hi, ⟨hr, rfl, rfl⟩⟩ := h
    exact .mk (spelled_one hl) hi (spelled_one hr)
  · intro _ _ h
    obtain ⟨hl, hi, hr⟩ := h
    obtain ⟨t, rfl, ht⟩ := hr.one
    exact hl.marked (.mk hi (.mk ht ⟨rfl, rfl⟩))

end DocBase.Sql.Parser
