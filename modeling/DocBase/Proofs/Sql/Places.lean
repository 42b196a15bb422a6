import DocBase.Proofs.Sql.Parsing
import Mathlib.Data.List.Forall2

namespace DocBase.Sql

/-- Tokens that are the same but for their places. -/
def Token.Alike (t u : Token) : Prop := u.kind = t.kind ∧ u.literal = t.literal

abbrev AllAlike : List Token → List Token → Prop := List.Forall₂ Token.Alike

section
variable {t : Token} {ts us vs : List Token}

theorem AllAlike.symm (h : AllAlike ts us) : AllAlike us ts := by
  induction h with
  | nil => exact .nil
  | cons ht _ ih => exact .cons ⟨ht.1.symm, ht.2.symm⟩ ih

theorem AllAlike.trans (h : AllAlike ts us) (h' : AllAlike us vs) : AllAlike ts vs := by
  induction h generalizing vs with
  | nil => exact h'
  | cons ht _ ih =>
    obtain _ | ⟨hu, hr⟩ := h'
    exact .cons ⟨hu.1.trans ht.1, hu.2.trans ht.2⟩ (ih hr)

theorem AllAlike.split (h : AllAlike (ts ++ us) vs) :
    ∃ ts' us', vs = ts' ++ us' ∧ AllAlike ts ts' ∧ AllAlike us us' := by
  induction ts generalizing vs with
  | nil => exact ⟨[], vs, rfl, .nil, h⟩
  | cons t ts ih =>
    obtain _ | ⟨ht, hr⟩ := h
    obtain ⟨ts', us', rfl, hts, hus⟩ := ih hr
    exact ⟨_ :: ts', us', rfl, .cons ht hts, hus⟩

theorem AllAlike.single (h : AllAlike [t] us) : ∃ u, us = [u] ∧ t.Alike u := by
  obtain _ | ⟨ht, hr⟩ := h
  cases hr
  exact ⟨_, rfl, ht⟩

end

namespace Grammar

/-- A property of tokens that has nothing to do with their places. -/
def Blind (P : List Token → Prop) : Prop := ∀ ⦃ts us : List Token⦄, AllAlike ts us → P ts → P us

theorem blind_spelled (kinds : List TokenKind) : Blind (Spelled kinds) := by
  intro ts us h hs
  subst hs
  induction h with
  | nil => rfl
  | cons ht _ ih => exact List.cons_eq_cons.2 ⟨ht.1, ih⟩

section
variable {α : Type} {item : Phrase α} (hi : ∀ a, Blind (item · a))
include hi

theorem blind_listed (as : List α) : Blind (Listed item · as) := by
  intro ts us h hl
  induction hl generalizing us with
  | one ha => exact .one (hi _ h ha)
  | more ha hc _ ih =>
    obtain ⟨_, _, rfl, hts, h⟩ := h.split
    obtain ⟨_, _, rfl, hcs, hus⟩ := h.split
    exact .more (hi _ hts ha) (blind_spelled _ hcs hc) (ih hus)

theorem blind_parenthesized (a : α) : Blind (Parenthesized item · a) := by
  rintro _ us h ⟨hl, ha, hr⟩
  obtain ⟨_, _, rfl, hls, h⟩ := h.split
  obtain ⟨_, _, rfl, hts, hrs⟩ := h.split
  exact .mk (blind_spelled _ hls hl) (hi _ hts ha) (blind_spelled _ hrs hr)

end

theorem blind_name (name : String) : Blind (Name · name) := by
  rintro _ us h ⟨hk⟩
  obtain ⟨u, rfl, hu⟩ := h.single
  exact .mk (hu.1.trans hk)

theorem blind_minus (negative : Bool) : Blind (Minus · negative) := by
  rintro ts us h (_ | hs)
  · cases h
    exact .absent
  · exact .present (blind_spelled _ h hs)

theorem Token.Alike.isInteger {t u : Token} {digits : List Char} (h : t.Alike u)
    (ht : t.IsInteger digits) : u.IsInteger digits := by
  rw [Token.IsInteger, h.1, h.2]
  exact ht

theorem Token.Alike.isFloat {t u : Token} {whole fraction : List Char} (h : t.Alike u)
    (ht : t.IsFloat whole fraction) : u.IsFloat whole fraction := by
  rw [Token.IsFloat, h.1, h.2]
  exact ht

theorem blind_literal (v : Value) : Blind (Literal · v) := by
  intro ts us h hl
  cases hl with
  | integer hm ht =>
    obtain ⟨_, _, rfl, hms, h⟩ := h.split
    obtain ⟨u, rfl, hu⟩ := h.single
    exact .integer (blind_minus _ hms hm) (Token.Alike.isInteger hu ht)
  | float hm ht =>
    obtain ⟨_, _, rfl, hms, h⟩ := h.split
    obtain ⟨u, rfl, hu⟩ := h.single
    exact .float (blind_minus _ hms hm) (Token.Alike.isFloat hu ht)
  | string hk =>
    obtain ⟨u, rfl, hu⟩ := h.single
    exact .string (hu.1.trans hk)
  | null hs => exact .null (blind_spelled _ h hs)
  | true hs => exact .true (blind_spelled _ h hs)
  | false hs => exact .false (blind_spelled _ h hs)

theorem blind_column (column : ColumnRef) : Blind (Column · column) := by
  intro ts us h hc
  cases hc with
  | plain hn => exact .plain (blind_name _ h hn)
  | qualified ht hd hn =>
    obtain ⟨_, _, rfl, hts, h⟩ := h.split
    obtain ⟨_, _, rfl, hds, hus⟩ := h.split
    exact .qualified (blind_name _ hts ht) (blind_spelled _ hds hd) (blind_name _ hus hn)

theorem blind_comparator (operator : Operator) : Blind (Comparator · operator) := by
  intro ts us h hc
  cases hc with
  | equal hs => exact .equal (blind_spelled _ h hs)
  | notEqual hs => exact .notEqual (blind_spelled _ h hs)
  | less hs => exact .less (blind_spelled _ h hs)
  | greater hs => exact .greater (blind_spelled _ h hs)
  | lessEqual hs => exact .lessEqual (blind_spelled _ h hs)
  | greaterEqual hs => exact .greaterEqual (blind_spelled _ h hs)
  | is hs => exact .is (blind_spelled _ h hs)
  | isNot hs => exact .isNot (blind_spelled _ h hs)

theorem blind_condition (level : Level) (e : Expression) : Blind (Condition level · e) := by
  intro ts us h hc
  induction hc generalizing us with
  | comparison hc ho hl =>
    obtain ⟨_, _, rfl, hcs, h⟩ := h.split
    obtain ⟨_, _, rfl, hos, hls⟩ := h.split
    exact .comparison (blind_column _ hcs hc) (blind_comparator _ hos ho) (blind_literal _ hls hl)
  | parenthesized hl _ hr ih =>
    obtain ⟨_, _, rfl, hls, h⟩ := h.split
    obtain ⟨_, _, rfl, hts, hrs⟩ := h.split
    exact .parenthesized (blind_spelled _ hls hl) (ih hts) (blind_spelled _ hrs hr)
  | ofPrimary _ ih => exact .ofPrimary (ih h)
  | and _ hc _ ihl ihr =>
    obtain ⟨_, _, rfl, hts, h⟩ := h.split
    obtain ⟨_, _, rfl, hcs, hus⟩ := h.split
    exact .and (ihl hts) (blind_spelled _ hcs hc) (ihr hus)
  | ofConjunction _ ih => exact .ofConjunction (ih h)
  | or _ hc _ ihl ihr =>
    obtain ⟨_, _, rfl, hts, h⟩ := h.split
    obtain ⟨_, _, rfl, hcs, hus⟩ := h.split
    exact .or (ihl hts) (blind_spelled _ hcs hc) (ihr hus)

theorem blind_where (condition : Option Expression) : Blind (Where · condition) := by
  intro ts us h hw
  cases hw with
  | absent =>
    cases h
    exact .absent
  | present hw hc =>
    obtain ⟨_, _, rfl, hws, hcs⟩ := h.split
    exact .present (blind_spelled _ hws hw) (blind_condition _ _ hcs hc)

theorem blind_projected (projection : Projection) : Blind (Projected · projection) := by
  intro ts us h hp
  cases hp with
  | all hs => exact .all (blind_spelled _ h hs)
  | columns hc => exact .columns (blind_listed blind_column _ h hc)

theorem blind_key (key : OrderKey) : Blind (Key · key) := by
  rintro _ us h ⟨hc, hd⟩
  obtain ⟨_, _, rfl, hcs, hds⟩ := h.split
  apply Key.mk (blind_column _ hcs hc)
  cases hd with
  | silent =>
    cases hds
    exact .silent
  | ascending hs => exact .ascending (blind_spelled _ hds hs)
  | descending hs => exact .descending (blind_spelled _ hds hs)

theorem blind_orderBy (keys : List OrderKey) : Blind (OrderBy · keys) := by
  intro ts us h ho
  cases ho with
  | absent =>
    cases h
    exact .absent
  | present hw hk =>
    obtain ⟨_, _, rfl, hws, hks⟩ := h.split
    exact .present (blind_spelled _ hws hw) (blind_listed blind_key _ hks hk)

theorem blind_unsigned (n : UInt64) : Blind (Unsigned · n) := by
  rintro _ us h ⟨ht, hn⟩
  obtain ⟨u, rfl, hu⟩ := h.single
  exact .mk (Token.Alike.isInteger hu ht) hn

theorem blind_limited (limit : Option Limit) : Blind (Limited · limit) := by
  intro ts us h hl
  cases hl with
  | absent =>
    cases h
    exact .absent
  | count hw hn =>
    obtain ⟨_, _, rfl, hws, hns⟩ := h.split
    exact .count (blind_spelled _ hws hw) (blind_unsigned _ hns hn)
  | offset hw hn ho hm =>
    obtain ⟨_, _, rfl, hws, h⟩ := h.split
    obtain ⟨_, _, rfl, hns, h⟩ := h.split
    obtain ⟨_, _, rfl, hos, hms⟩ := h.split
    exact .offset (blind_spelled _ hws hw) (blind_unsigned _ hns hn) (blind_spelled _ hos ho)
      (blind_unsigned _ hms hm)
  | comma hw hm hc hn =>
    obtain ⟨_, _, rfl, hws, h⟩ := h.split
    obtain ⟨_, _, rfl, hms, h⟩ := h.split
    obtain ⟨_, _, rfl, hcs, hns⟩ := h.split
    exact .comma (blind_spelled _ hws hw) (blind_unsigned _ hms hm) (blind_spelled _ hcs hc)
      (blind_unsigned _ hns hn)

theorem blind_columnList (columns : Option (List String)) : Blind (ColumnList · columns) := by
  intro ts us h hc
  cases hc with
  | absent =>
    cases h
    exact .absent
  | present hp => exact .present (blind_parenthesized (blind_listed blind_name) _ h hp)

theorem blind_assigned (a : Assignment) : Blind (Assigned · a) := by
  rintro _ us h ⟨hn, he, hl⟩
  obtain ⟨_, _, rfl, hns, h⟩ := h.split
  obtain ⟨_, _, rfl, hes, hls⟩ := h.split
  exact .mk (blind_name _ hns hn) (blind_spelled _ hes he) (blind_literal _ hls hl)

theorem blind_size : Blind Size := by
  intro ts us h hs
  cases hs with
  | absent =>
    cases h
    exact .absent
  | one hs => exact .one (blind_spelled _ h hs)
  | two hs => exact .two (blind_spelled _ h hs)

theorem blind_typed (type : ColumnType) : Blind (Typed · type) := by
  rintro _ us h ⟨hn, hs⟩
  obtain ⟨_, _, rfl, hns, hss⟩ := h.split
  exact .mk (blind_name _ hns hn) (blind_size hss hs)

theorem blind_constraint : Blind Constraint := by
  intro ts us h hc
  cases hc with
  | notNull hs => exact .notNull (blind_spelled _ h hs)
  | null hs => exact .null (blind_spelled _ h hs)
  | unique hs => exact .unique (blind_spelled _ h hs)
  | primaryKey hs => exact .primaryKey (blind_spelled _ h hs)
  | default hd hl =>
    obtain ⟨_, _, rfl, hds, hls⟩ := h.split
    exact .default (blind_spelled _ hds hd) (blind_literal _ hls hl)

theorem blind_constraints : Blind Constraints := by
  intro ts us h hc
  induction hc generalizing us with
  | none =>
    cases h
    exact .none
  | more hc _ ih =>
    obtain ⟨_, _, rfl, hts, hus⟩ := h.split
    exact .more (blind_constraint hts hc) (ih hus)

theorem blind_uniqueness : Blind Uniqueness := by
  intro ts us h hu
  cases hu with
  | primaryKey hs => exact .primaryKey (blind_spelled _ h hs)
  | unique hs => exact .unique (blind_spelled _ h hs)

theorem blind_item (item : Option (String × ColumnType)) : Blind (Item · item) := by
  intro ts us h hi
  cases hi with
  | column hn ht hc =>
    obtain ⟨_, _, rfl, hns, h⟩ := h.split
    obtain ⟨_, _, rfl, hts, hcs⟩ := h.split
    exact .column (blind_name _ hns hn) (blind_typed _ hts ht) (blind_constraints hcs hc)
  | constraint hw hn =>
    obtain ⟨_, _, rfl, hws, hns⟩ := h.split
    exact .constraint (blind_uniqueness hws hw)
      (blind_parenthesized (blind_listed blind_name) _ hns hn)

theorem blind_sentence (s : Statement) : Blind (Sentence · s) := by
  intro ts us h hs
  cases hs with
  | create hw hn hi hne =>
    obtain ⟨_, _, rfl, hws, h⟩ := h.split
    obtain ⟨_, _, rfl, hns, his⟩ := h.split
    exact .create (blind_spelled _ hws hw) (blind_name _ hns hn)
      (blind_parenthesized (blind_listed blind_item) _ his hi) hne
  | drop hw hn =>
    obtain ⟨_, _, rfl, hws, hns⟩ := h.split
    exact .drop (blind_spelled _ hws hw) (blind_name _ hns hn)
  | insert hw hn hc hv ht =>
    obtain ⟨_, _, rfl, hws, h⟩ := h.split
    obtain ⟨_, _, rfl, hns, h⟩ := h.split
    obtain ⟨_, _, rfl, hcs, h⟩ := h.split
    obtain ⟨_, _, rfl, hvs, hts⟩ := h.split
    exact .insert (blind_spelled _ hws hw) (blind_name _ hns hn) (blind_columnList _ hcs hc)
      (blind_spelled _ hvs hv)
      (blind_listed (blind_parenthesized (blind_listed blind_literal)) _ hts ht)
  | update hu hn hs ha hc =>
    obtain ⟨_, _, rfl, hus, h⟩ := h.split
    obtain ⟨_, _, rfl, hns, h⟩ := h.split
    obtain ⟨_, _, rfl, hss, h⟩ := h.split
    obtain ⟨_, _, rfl, has, hcs⟩ := h.split
    exact .update (blind_spelled _ hus hu) (blind_name _ hns hn) (blind_spelled _ hss hs)
      (blind_listed blind_assigned _ has ha) (blind_where _ hcs hc)
  | delete hw hn hc =>
    obtain ⟨_, _, rfl, hws, h⟩ := h.split
    obtain ⟨_, _, rfl, hns, hcs⟩ := h.split
    exact .delete (blind_spelled _ hws hw) (blind_name _ hns hn) (blind_where _ hcs hc)
  | select hs hp hf hn hc ho hl =>
    obtain ⟨_, _, rfl, hss, h⟩ := h.split
    obtain ⟨_, _, rfl, hps, h⟩ := h.split
    obtain ⟨_, _, rfl, hfs, h⟩ := h.split
    obtain ⟨_, _, rfl, hns, h⟩ := h.split
    obtain ⟨_, _, rfl, hcs, h⟩ := h.split
    obtain ⟨_, _, rfl, hos, hls⟩ := h.split
    exact .select (blind_spelled _ hss hs) (blind_projected _ hps hp) (blind_spelled _ hfs hf)
      (blind_name _ hns hn) (blind_where _ hcs hc) (blind_orderBy _ hos ho)
      (blind_limited _ hls hl)

theorem blind_text (s : Statement) : Blind (Text · s) := by
  intro ts us h ht
  cases ht with
  | plain hs => exact .plain (blind_sentence _ h hs)
  | terminated hs he =>
    obtain ⟨_, _, rfl, hts, hes⟩ := h.split
    exact .terminated (blind_sentence _ hts hs) (blind_spelled _ hes he)

end Grammar

open Grammar

theorem AllAlike.words {text text' : String} (h : AllAlike (tokens text) (tokens text')) :
    AllAlike (words text) (words text') := by
  obtain ⟨e, he, -⟩ := tokens_eq text
  obtain ⟨e', he', -⟩ := tokens_eq text'
  rw [he, he'] at h
  obtain ⟨us, vs, heq, hus, hvs⟩ := h.split
  obtain ⟨u, rfl, -⟩ := hvs.single
  rwa [(List.append_inj' heq rfl).1]

/-- Texts of the same tokens are the same statement, or none. -/
theorem parse_iff_of_alike {text text' : String} (h : AllAlike (tokens text) (tokens text'))
    (s : Statement) : parse text = .ok s ↔ parse text' = .ok s := by
  constructor
  · intro hs
    exact parse_of_derives (blind_text s h.words (derives_of_parse hs))
  · intro hs
    exact parse_of_derives (blind_text s h.symm.words (derives_of_parse hs))

end DocBase.Sql
