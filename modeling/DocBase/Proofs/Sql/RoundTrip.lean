import DocBase.Proofs.Sql.Parsing
import DocBase.Proofs.Sql.Printing

namespace DocBase

namespace Sql

open Grammar

theorem Grammar.Listed.map {α β : Type} {f : α → β} {item : Phrase β} {ts : List Token}
    {as : List α} (h : Listed (fun ts a => item ts (f a)) ts as) : Listed item ts (as.map f) := by
  induction h with
  | one h => exact .one h
  | more h hc _ ih => exact .more h hc ih

/-- Tokens that are read for glyphs, one for each. -/
abbrev ReadAs (gs : List Glyph) (ts : List Token) : Prop := List.Forall₂ Glyph.Reads gs ts

namespace ReadAs

variable {ts : List Token}

theorem append {gs hs : List Glyph} (h : ReadAs (gs ++ hs) ts) :
    ∃ us vs, ts = us ++ vs ∧ ReadAs gs us ∧ ReadAs hs vs := by
  induction gs generalizing ts with
  | nil => exact ⟨[], ts, rfl, .nil, h⟩
  | cons g gs ih =>
    cases h with
    | cons hg h =>
      obtain ⟨us, vs, rfl, hu, hv⟩ := ih h
      exact ⟨_ :: us, vs, rfl, .cons hg hu, hv⟩

theorem singleton {g : Glyph} (h : ReadAs [g] ts) : ∃ t, ts = [t] ∧ g.Reads t := by
  cases h with
  | cons hg h =>
    cases h
    exact ⟨_, rfl, hg⟩

theorem keyword {k : Keyword} (h : ReadAs [.keyword k] ts) : Spelled [.keyword k] ts := by
  obtain ⟨t, rfl, ht⟩ := h.singleton
  cases ht with
  | keyword hk => exact congrArg (fun kind => [kind]) hk

theorem keywords {k l : Keyword} (h : ReadAs [.keyword k, .keyword l] ts) :
    Spelled [.keyword k, .keyword l] ts := by
  have hsplit : ReadAs ([.keyword k] ++ [.keyword l]) ts := h
  obtain ⟨us, vs, rfl, hk, hl⟩ := hsplit.append
  have hk : us.map Token.kind = _ := hk.keyword
  have hl : vs.map Token.kind = _ := hl.keyword
  rw [Spelled, List.map_append, hk, hl]
  rfl

theorem sign {s : Sign} (h : ReadAs [.sign s] ts) : Spelled [.sign s] ts := by
  obtain ⟨t, rfl, ht⟩ := h.singleton
  cases ht with
  | sign hs => exact congrArg (fun kind => [kind]) hs

theorem name {name : String} (h : ReadAs [.name name] ts) : Name ts name := by
  obtain ⟨t, rfl, ht⟩ := h.singleton
  cases ht with
  | name hn => exact .mk hn

theorem parenthesized {α : Type} {inner : Phrase α} {gs : List Glyph} {a : α}
    (h : ReadAs (parenGlyphs gs) ts) (hi : ∀ us, ReadAs gs us → inner us a) :
    Parenthesized inner ts a := by
  obtain ⟨l, us, rfl, hl, h⟩ := h.append
  obtain ⟨us, r, rfl, hu, hr⟩ := h.append
  exact .mk hl.sign (hi us hu) hr.sign

theorem listed {α : Type} {item : Phrase α} {glyphs : α → List Glyph} {as : List α}
    (h : ReadAs (commaGlyphs glyphs as) ts) (hne : as ≠ [])
    (hi : ∀ a ∈ as, ∀ us, ReadAs (glyphs a) us → item us a) : Listed item ts as := by
  induction as generalizing ts with
  | nil => exact absurd rfl hne
  | cons a as ih =>
    cases as with
    | nil => exact .one (hi a (.head _) ts h)
    | cons b bs =>
      obtain ⟨us, vs, rfl, hu, h⟩ := h.append
      obtain ⟨c, vs, rfl, hc, hv⟩ := h.append
      exact .more (hi a (.head _) us hu) hc.sign
        (ih hv (List.cons_ne_nil _ _) fun a hm => hi a (.tail _ hm))

theorem minus {negative : Bool} (h : ReadAs (minusGlyphs negative) ts) : Minus ts negative := by
  cases negative with
  | false =>
    cases h
    exact .absent
  | true => exact .present h.sign

theorem literal {v : Value} (h : ReadAs (literalGlyphs v) ts) : Literal ts v := by
  cases v with
  | null => exact .null h.keyword
  | boolean b =>
    cases b with
    | true => exact .true h.keyword
    | false => exact .false h.keyword
  | integer i =>
    obtain ⟨ms, us, rfl, hm, h⟩ := h.append
    obtain ⟨t, rfl, ht⟩ := h.singleton
    cases ht with
    | @integer _ digits t ht hn =>
      have hi : (if decide (i < 0) then -(digitsValue digits : Int) else digitsValue digits) =
          i.toInt := by
        simp only [decide_eq_true_eq, Int64.lt_iff_toInt_lt, Int64.toInt_zero]
        split <;> omega
      have hl := Literal.integer hm.minus ht
      rw [hi, Value.ofInt_toInt] at hl
      exact hl
  | float f =>
    obtain ⟨ms, us, rfl, hm, h⟩ := h.append
    obtain ⟨t, rfl, ht⟩ := h.singleton
    cases ht with
    | float ht hn =>
      have hl := Literal.float hm.minus ht
      rw [hn] at hl
      exact hl
  | text s =>
    obtain ⟨t, rfl, ht⟩ := h.singleton
    cases ht with
    | string ht => exact .string ht

theorem column {column : ColumnRef} (h : ReadAs column.glyphs ts) : Column ts column := by
  obtain ⟨table, name⟩ := column
  cases table with
  | none => exact .plain h.name
  | some table =>
    obtain ⟨us, vs, rfl, hu, h⟩ := h.append
    obtain ⟨d, vs, rfl, hd, hv⟩ := h.append
    exact .qualified hu.name hd.sign hv.name

theorem comparator {operator : Operator} (h : ReadAs operator.glyphs ts) :
    Comparator ts operator := by
  cases operator with
  | equal => exact .equal h.sign
  | notEqual => exact .notEqual h.sign
  | is => exact .is h.keyword
  | isNot => exact .isNot h.keywords
  | less => exact .less h.sign
  | greater => exact .greater h.sign
  | lessEqual => exact .lessEqual h.sign
  | greaterEqual => exact .greaterEqual h.sign

end ReadAs

/-- The tightest level that a condition belongs to without parentheses. -/
def Expression.level : Expression → Level
  | logical _ .and _ => .conjunction
  | logical _ .or _ => .disjunction
  | comparison .. => .primary

namespace Grammar.Condition

variable {ts : List Token} {e : Expression} (h : Condition e.level ts e)
include h

theorem primary_of_level (ha : e.isAlike .and = false) (ho : e.isAlike .or = false) :
    Condition .primary ts e := by
  cases e with
  | comparison column operator literal => exact h
  | logical left connective right =>
    cases connective with
    | and => cases ha
    | or => cases ho

theorem conjunction_of_level (ho : e.isAlike .or = false) : Condition .conjunction ts e := by
  cases e with
  | comparison column operator literal => exact .ofPrimary h
  | logical left connective right =>
    cases connective with
    | and => exact h
    | or => cases ho

theorem disjunction_of_level : Condition .disjunction ts e := by
  cases e with
  | comparison column operator literal => exact .ofConjunction (.ofPrimary h)
  | logical left connective right =>
    cases connective with
    | and => exact .ofConjunction h
    | or => exact h

end Grammar.Condition

theorem Expression.isLooser_and (e : Expression) : e.isLooser .and = e.isAlike .or := by
  cases e with
  | comparison => rfl
  | logical left connective right => cases connective <;> rfl

namespace ReadAs

variable {ts : List Token}

theorem operand {e : Expression} {wrapped : Bool}
    (h : ReadAs (if wrapped then parenGlyphs e.glyphs else e.glyphs) ts)
    (he : ∀ us, ReadAs e.glyphs us → Condition e.level us e) :
    Condition .primary ts e ∨ wrapped = false ∧ Condition e.level ts e := by
  cases wrapped with
  | false => exact .inr ⟨rfl, he ts h⟩
  | true =>
    obtain ⟨l, us, rfl, hl, h⟩ := append h
    obtain ⟨us, r, rfl, hu, hr⟩ := h.append
    exact .inl (.parenthesized hl.sign (he us hu).disjunction_of_level hr.sign)

/-- The parentheses that are printed put every condition on its level. -/
theorem condition {e : Expression} (h : ReadAs e.glyphs ts) : Condition e.level ts e := by
  induction e generalizing ts with
  | comparison column operator literal =>
    obtain ⟨cs, us, rfl, hc, h⟩ := h.append
    obtain ⟨os, ls, rfl, ho, hl⟩ := h.append
    exact .comparison hc.column ho.comparator hl.literal
  | logical left connective right ihl ihr =>
    obtain ⟨us, vs, rfl, hu, h⟩ := h.append
    obtain ⟨cs, vs, rfl, hc, hv⟩ := h.append
    have hleft := operand hu fun _ h => ihl h
    have hright := operand hv fun _ h => ihr h
    rw [Bool.or_eq_false_iff] at hright
    cases connective with
    | and =>
      rw [left.isLooser_and] at hleft
      rw [right.isLooser_and] at hright
      have hl : Condition .conjunction us left := by
        obtain hp | ⟨ho, hl⟩ := hleft
        · exact .ofPrimary hp
        · exact hl.conjunction_of_level ho
      have hr : Condition .primary vs right := by
        obtain hp | ⟨⟨ho, ha⟩, hr⟩ := hright
        · exact hp
        · exact hr.primary_of_level ha ho
      exact .and hl hc.keyword hr
    | or =>
      have hl : Condition .disjunction us left := by
        obtain hp | ⟨-, hl⟩ := hleft
        · exact .ofConjunction (.ofPrimary hp)
        · exact hl.disjunction_of_level
      have hr : Condition .conjunction vs right := by
        obtain hp | ⟨⟨-, ho⟩, hr⟩ := hright
        · exact .ofPrimary hp
        · exact hr.conjunction_of_level ho
      exact .or hl hc.keyword hr

theorem whereClause {condition : Option Expression} (h : ReadAs (whereGlyphs condition) ts) :
    Where ts condition := by
  cases condition with
  | none =>
    cases h
    exact .absent
  | some e =>
    obtain ⟨w, us, rfl, hw, hu⟩ := h.append
    exact .present hw.keyword hu.condition.disjunction_of_level

theorem projection {projection : Projection} (h : ReadAs projection.glyphs ts)
    (hp : projection ≠ .columns []) : Projected ts projection := by
  cases projection with
  | all => exact .all h.sign
  | columns refs =>
    have hne : refs ≠ [] := by
      rintro rfl
      exact hp rfl
    exact .columns (h.listed hne fun _ _ _ h => h.column)

theorem orderKey {key : OrderKey} (h : ReadAs key.glyphs ts) : Key ts key := by
  obtain ⟨column, direction⟩ := key
  obtain ⟨cs, ds, rfl, hc, hd⟩ := h.append
  cases direction with
  | ascending => exact .mk hc.column (.ascending hd.keyword)
  | descending => exact .mk hc.column (.descending hd.keyword)

theorem orderBy {keys : List OrderKey} (h : ReadAs (orderGlyphs keys) ts) : OrderBy ts keys := by
  cases keys with
  | nil =>
    cases h
    exact .absent
  | cons key keys =>
    obtain ⟨w, ks, rfl, hw, hk⟩ := append h
    exact .present hw.keywords (hk.listed (List.cons_ne_nil _ _) fun _ _ _ h => h.orderKey)

theorem unsigned {n : UInt64} (h : ReadAs [.integer n.toNat] ts) : Unsigned ts n := by
  obtain ⟨t, rfl, ht⟩ := h.singleton
  cases ht with
  | integer ht hn =>
    have hu := Unsigned.mk ht (hn ▸ n.toNat_lt)
    rw [hn, UInt64.ofNat_toNat] at hu
    exact hu

theorem limited {limit : Option Limit} (h : ReadAs (limitGlyphs limit) ts) : Limited ts limit := by
  cases limit with
  | none =>
    cases h
    exact .absent
  | some limit =>
    obtain ⟨w, us, rfl, hw, h⟩ := h.append
    obtain ⟨ns, us, rfl, hn, h⟩ := h.append
    obtain ⟨o, ms, rfl, ho, hm⟩ := h.append
    exact .offset hw.keyword hn.unsigned ho.keyword hm.unsigned

theorem columnList {columns : Option (List String)} (h : ReadAs (columnListGlyphs columns) ts)
    (hc : columns ≠ some []) : ColumnList ts columns := by
  cases columns with
  | none =>
    cases h
    exact .absent
  | some columns =>
    have hne : columns ≠ [] := by
      rintro rfl
      exact hc rfl
    exact .present (h.parenthesized fun _ h => h.listed hne fun _ _ _ h => h.name)

theorem assigned {a : Assignment} (h : ReadAs a.glyphs ts) : Assigned ts a := by
  obtain ⟨ns, us, rfl, hn, h⟩ := h.append
  obtain ⟨e, ls, rfl, he, hl⟩ := h.append
  exact .mk hn.name he.sign hl.literal

theorem definition {column : String × ColumnType} (h : ReadAs (definitionGlyphs column) ts)
    (hc : column.2.Named) : Item ts (some column) := by
  obtain ⟨name, type⟩ := column
  obtain ⟨ns, us, rfl, hn, hu⟩ := h.append
  have ht := Typed.mk hu.name .absent
  rw [List.append_nil, hc] at ht
  have hi := Item.column hn.name ht .none
  rw [List.append_nil] at hi
  exact hi

theorem definitions {columns : List (String × ColumnType)}
    (h : ReadAs (commaGlyphs definitionGlyphs columns) ts) (hne : columns ≠ [])
    (hc : ∀ column ∈ columns, column.2.Named) : Listed Item ts (columns.map some) :=
  .map (h.listed hne fun column hm _ h => h.definition (hc column hm))

theorem tuple {tuple : List Value} (h : ReadAs (parenGlyphs (commaGlyphs literalGlyphs tuple)) ts)
    (hne : tuple ≠ []) : Parenthesized (Listed Literal) ts tuple :=
  h.parenthesized fun _ h => h.listed hne fun _ _ _ h => h.literal

theorem sentence {s : Statement} (h : ReadAs s.glyphs ts) (hp : s.Printable) : Sentence ts s := by
  cases s with
  | select s =>
    obtain ⟨w, us, rfl, hw, h⟩ := h.append
    obtain ⟨ps, us, rfl, hps, h⟩ := h.append
    obtain ⟨f, us, rfl, hf, h⟩ := h.append
    obtain ⟨ns, us, rfl, hn, h⟩ := h.append
    obtain ⟨cs, us, rfl, hc, h⟩ := h.append
    obtain ⟨os, ls, rfl, ho, hl⟩ := h.append
    exact .select hw.keyword (hps.projection hp) hf.keyword hn.name hc.whereClause ho.orderBy
      hl.limited
  | insert s =>
    obtain ⟨hcolumns, htuples, htuple⟩ := hp
    obtain ⟨w, us, rfl, hw, h⟩ := h.append
    obtain ⟨ns, us, rfl, hn, h⟩ := h.append
    obtain ⟨cs, us, rfl, hc, h⟩ := h.append
    obtain ⟨v, us, rfl, hv, ht⟩ := h.append
    have hlist := ht.listed htuples fun tuple hm _ h => h.tuple (ne_of_mem_of_not_mem hm htuple)
    exact .insert hw.keywords hn.name (hc.columnList hcolumns) hv.keyword hlist
  | update s =>
    obtain ⟨u, us, rfl, hu, h⟩ := h.append
    obtain ⟨ns, us, rfl, hn, h⟩ := h.append
    obtain ⟨v, us, rfl, hv, h⟩ := h.append
    obtain ⟨as, cs, rfl, ha, hc⟩ := h.append
    have hlist := ha.listed hp fun _ _ _ h => h.assigned
    exact .update hu.keyword hn.name hv.keyword hlist hc.whereClause
  | delete s =>
    obtain ⟨w, us, rfl, hw, h⟩ := h.append
    obtain ⟨ns, cs, rfl, hn, hc⟩ := h.append
    exact .delete hw.keywords hn.name hc.whereClause
  | create s =>
    obtain ⟨hne, hnamed⟩ := hp
    obtain ⟨w, us, rfl, hw, h⟩ := h.append
    obtain ⟨ns, is, rfl, hn, hi⟩ := h.append
    have hcolumns : (s.columns.map some).filterMap id = s.columns := by simp
    have hitems := hi.parenthesized fun _ h => h.definitions hne hnamed
    have hs := Sentence.create hw.keywords hn.name hitems (hcolumns.symm ▸ hne)
    rw [hcolumns] at hs
    exact hs
  | drop s =>
    obtain ⟨w, ns, rfl, hw, hn⟩ := h.append
    exact .drop hw.keywords hn.name

end ReadAs

/-- Parsing a text that a statement prints as gives the statement. -/
theorem parse_of_prints {s : Statement} {text : String} (hp : s.Printable) (ht : s.Prints text) :
    parse text = .ok s := by
  obtain ⟨spellings, hs, rfl⟩ := ht
  have hw : ReadAs s.glyphs (words (.ofList ([' '].intercalate spellings))) := reads_words hs
  exact parse_of_derives (.plain (hw.sentence hp))

/-- Names may be empty, keywords, or hold quotes, comments and line breaks. -/
theorem parse_of_prints_odd_names :
    let half : Binary64 := .finite true ⟨0x3fe0000000000000, by decide⟩
    let left : Expression := .logical (.comparison ⟨none, "a`b"⟩ .equal (.text "it's")) .or
      (.comparison ⟨some "", "select"⟩ .isNot .null)
    let right : Expression := .logical (.comparison ⟨none, "c"⟩ .greater (.integer .minValue)) .and
      (.comparison ⟨none, "d"⟩ .less (.float half))
    let s : Statement := .select ⟨.all, "-- '\n", some (.logical left .and right), [], none⟩
    let text := "SELECT * FROM `-- '\n` WHERE ( `a``b` = 'it''s' OR `` . `select` IS NOT NULL ) " ++
      "AND ( `c` > - 9223372036854775808 AND `d` < - 0.5 )"
    s.Printable ∧ s.Prints text ∧ parse text = .ok s := by
  intro half left right s text
  have hp : s.Printable := nofun
  have ht : s.Prints text := by
    have he : text = s.print := by decide +kernel
    have hv : ∀ v ∈ s.literals, v ≠ .float .nan := by decide +kernel
    rw [he]
    exact Statement.prints_print hv
  exact ⟨hp, ht, parse_of_prints hp ht⟩

end Sql

end DocBase
