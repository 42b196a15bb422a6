import DocBase.Proofs.Sql.Conditions

namespace DocBase.Sql.Parser

open Grammar

variable {ts rest : List Token} {blocked : List TokenKind}

theorem clear_of_name {name : String} (h : Name ts name)
    (hb : ∀ name, .identifier name ∉ blocked) : Clear blocked (ts ++ rest) := by
  obtain ⟨hk⟩ := h
  exact .cons (hk ▸ hb _)

theorem clear_of_column {column : ColumnRef} (h : Column ts column)
    (hb : ∀ name, .identifier name ∉ blocked) : Clear blocked (ts ++ rest) := by
  obtain ⟨t, us, name, rfl, hk⟩ := Column.starts h
  exact .cons (hk ▸ hb _)

theorem clear_of_listed {α : Type} {item : Phrase α} {as : List α} (h : Listed item ts as)
    (hi : ∀ {us rest a}, item us a → Clear blocked (us ++ rest)) :
    Clear blocked (ts ++ rest) := by
  cases h with
  | one ha => exact hi ha
  | more ha _ _ =>
    rw [List.append_assoc]
    exact hi ha

theorem reads_projection : Reads projection Projected [.sign .comma, .sign .dot] := by
  have hc := (reads_commaList reads_columnRef (by simp)).map Projection.columns
  refine (Reads.skipElse (.sign .asterisk) (Reads.pure Projection.all).free hc ?_).mono ?_ ?_
  · intro _ _ _ h _
    obtain ⟨_, hl, rfl⟩ := h
    exact clear_of_listed hl fun hc => clear_of_column hc (by simp)
  · intro _ _ h
    rcases h with ⟨ha, rfl, rfl⟩ | ⟨_, hl, rfl⟩
    · exact .all (spelled_one ha)
    · exact .columns hl
  · intro _ _ h
    rcases h with ha | hl
    · obtain ⟨t, rfl, ht⟩ := ha.one
      exact .inl (.mk ht ⟨rfl, rfl⟩)
    · exact .inr ⟨_, hl, rfl⟩

theorem reads_orderKey : Reads orderKey Key [.keyword .DESC, .keyword .ASC, .sign .dot] := by
  have ha (column : ColumnRef) := Reads.optional (.keyword .ASC)
    (Reads.pure (⟨column, .ascending⟩ : OrderKey)) ⟨column, .ascending⟩
  have hd (column : ColumnRef) := Reads.skipElse (.keyword .DESC)
    (Reads.pure (⟨column, .descending⟩ : OrderKey)).free
    ((ha column).weaken [.keyword .DESC, .keyword .ASC, .sign .dot] (by simp))
    fun h hr => clear_of_optional h (by simp) (hr.weaken (by simp))
  refine (reads_columnRef.bind hd ?_).mono ?_ ?_
  · intro _ _ _ _ h hr
    rcases h with h | h
    · exact h.clear (by simp)
    · exact clear_of_optional h (by simp) (hr.weaken (by simp))
  · intro _ _ h
    obtain ⟨hc, ⟨hd, rfl, rfl⟩ | ⟨ha, rfl, rfl⟩ | ⟨rfl, rfl⟩⟩ := h
    · exact .mk hc (.descending (spelled_one hd))
    · exact .mk hc (.ascending (spelled_one ha))
    · exact .mk hc .silent
  · intro _ _ h
    obtain ⟨hc, hd⟩ := h
    cases hd with
    | silent => exact .mk hc (.inr (.inr ⟨rfl, rfl⟩))
    | ascending hs =>
      obtain ⟨t, rfl, ht⟩ := hs.one
      exact .mk hc (.inr (.inl (.mk ht ⟨rfl, rfl⟩)))
    | descending hs =>
      obtain ⟨t, rfl, ht⟩ := hs.one
      exact .mk hc (.inl (.mk ht ⟨rfl, rfl⟩))

abbrev orderStops : List TokenKind :=
  [.keyword .ORDER, .sign .comma, .keyword .DESC, .keyword .ASC, .sign .dot]

theorem reads_order : Reads order OrderBy orderStops := by
  have hk := Reads.expect (.keyword .BY) (reads_commaList reads_orderKey (by simp))
  apply (Reads.optional (.keyword .ORDER) hk []).mono
  · intro _ _ h
    rcases h with ⟨ho, hb, hl⟩ | ⟨rfl, rfl⟩
    · exact .present (spelled_two ho hb) hl
    · exact .absent
  · intro _ _ h
    rcases h with _ | ⟨hw, hl⟩
    · exact .inr ⟨rfl, rfl⟩
    · exact .inl (hw.marked_two hl)

theorem reads_unsigned : Reads unsigned Unsigned [] where
  sound {ts} rest n hl h := by
    rw [unsigned, current_bind] at h
    cases ts with
    | nil => cases h
    | cons t us =>
      dsimp only [List.head?_cons] at h
      by_cases hk : t.kind = .integer
      · rw [if_pos hk] at h
        obtain ⟨digits, hi⟩ := (hl t (.head _)).1 hk
        have hd := hi.2.1
        by_cases hn : digitsValue t.literal.toList < UInt64.size
        · rw [if_pos hn] at h
          cases h
          rw [hd] at hn ⊢
          exact ⟨[t], rfl, .mk hi hn⟩
        · rw [if_neg hn] at h
          cases h
      · rw [if_neg hk] at h
        split at h
        · cases h
        · exact absurd h unexpected_ne_ok
  complete h _ := by
    obtain ⟨hi, hn⟩ := h
    rw [unsigned, current_bind]
    dsimp only [List.head?_cons, List.cons_append]
    rw [if_pos hi.1, hi.2.1, if_pos hn]
    rfl

theorem reads_limit :
    Reads limit Limited [.keyword .LIMIT, .sign .comma, .keyword .OFFSET] := by
  have ho (first : UInt64) := Reads.optional (.keyword .OFFSET)
    (reads_unsigned.map fun offset => some (⟨first, offset⟩ : Limit)) (some ⟨first, 0⟩)
  have hc (first : UInt64) := Reads.skipElse (.sign .comma)
    (reads_unsigned.map fun count => some (⟨count, first⟩ : Limit)).free
    ((ho first).weaken [.sign .comma, .keyword .OFFSET] (by simp))
    fun h hr => clear_of_optional h (by simp) (hr.weaken (by simp))
  apply (Reads.optional (.keyword .LIMIT) (reads_unsigned.andThen hc) none).mono
  · intro _ _ h
    rcases h with ⟨hl, hn, ⟨hc, _, hm, rfl⟩ | ⟨ho, _, hm, rfl⟩ | ⟨rfl, rfl⟩⟩ | ⟨rfl, rfl⟩
    · exact .comma (spelled_one hl) hn (spelled_one hc) hm
    · exact .offset (spelled_one hl) hn (spelled_one ho) hm
    · rw [List.append_nil]
      exact .count (spelled_one hl) hn
    · exact .absent
  · intro _ _ h
    rcases h with _ | ⟨hl, hn⟩ | ⟨hl, hn, ho, hm⟩ | ⟨hl, hn, hc, hm⟩
    · exact .inr ⟨rfl, rfl⟩
    · exact .inl (hl.marked (.ending hn (.inr (.inr ⟨rfl, rfl⟩))))
    · exact .inl (hl.marked (.mk hn (.inr (.inl (ho.marked ⟨_, hm, rfl⟩)))))
    · exact .inl (hl.marked (.mk hn (.inl (hc.marked ⟨_, hm, rfl⟩))))

abbrev sentenceStops : List TokenKind :=
  [.keyword .WHERE, .keyword .AND, .keyword .OR, .keyword .ORDER, .sign .comma, .keyword .DESC,
   .keyword .ASC, .sign .dot, .keyword .LIMIT, .keyword .OFFSET]

theorem clear_of_where {condition : Option Expression} (h : Where ts condition)
    (hb : .keyword .WHERE ∉ blocked) (hr : Clear blocked rest) : Clear blocked (ts ++ rest) := by
  rcases h with _ | ⟨hw, _⟩
  · exact hr
  · rw [List.append_assoc]
    exact hw.clear hb

theorem clear_of_order {keys : List OrderKey} (h : OrderBy ts keys)
    (hb : .keyword .ORDER ∉ blocked) (hr : Clear blocked rest) : Clear blocked (ts ++ rest) := by
  rcases h with _ | ⟨hw, _⟩
  · exact hr
  · rw [List.append_assoc]
    exact hw.clear hb

theorem clear_of_limit {limit : Option Limit} (h : Limited ts limit)
    (hb : .keyword .LIMIT ∉ blocked) (hr : Clear blocked rest) : Clear blocked (ts ++ rest) := by
  rcases h with _ | ⟨hw, _⟩ | ⟨hw, _⟩ | ⟨hw, _⟩
  · exact hr
  all_goals
    rw [List.append_assoc]
    exact hw.clear hb

abbrev unlimitedStops : List TokenKind :=
  [.keyword .WHERE, .keyword .AND, .keyword .OR, .keyword .ORDER, .sign .comma, .keyword .DESC,
   .keyword .ASC, .sign .dot]

/-- A query up to where its limit may stand. -/
def unlimited : Parser Select := do
  let _ ← expect (.keyword .SELECT)
  let projection ← projection
  let _ ← expect (.keyword .FROM)
  let table ← identifier
  let condition ← condition
  let order ← order
  return ⟨projection, table, condition, order, none⟩

theorem select_eq :
    select = (do let query ← unlimited; let limit ← limit; return { query with limit }) := by
  simp only [select, unlimited, bind_assoc, pure_bind]

theorem reads_unlimited :
    Reads unlimited (fun ts s => Sentence ts (.select s) ∧ s.limit = none) unlimitedStops := by
  have ho (projection : Projection) (table : String) (condition : Option Expression) :=
    (reads_order.weaken unlimitedStops (by simp)).map
      fun order => (⟨projection, table, condition, order, none⟩ : Select)
  have hw (projection : Projection) (table : String) :=
    reads_condition.bind (ho projection table) fun ⟨_, h, _⟩ hr =>
      clear_of_order h (by simp) (hr.weaken (by simp))
  have hf (projection : Projection) :=
    Reads.expect (.keyword .FROM) (reads_identifier.andThen (hw projection))
  refine (Reads.expect (.keyword .SELECT) (reads_projection.bind hf fun h _ =>
    h.clear (by simp))).mono ?_ ?_
  · intro _ _ h
    obtain ⟨hs, hp, hf, hn, hw, _, ho, rfl⟩ := h
    have h := Sentence.select (spelled_one hs) hp (spelled_one hf) hn hw ho .absent
    simp only [List.append_nil] at h
    exact ⟨h, rfl⟩
  · intro _ _ h
    obtain ⟨h, hnone⟩ := h
    cases h with
    | select hs hp hf hn hw ho hl =>
      cases hnone
      cases hl
      simp only [List.append_nil]
      exact hs.marked (.mk hp (hf.marked (.mk hn (.mk hw ⟨_, ho, rfl⟩))))

/-- A query is one without a limit and the limit behind it. -/
theorem sentence_select_iff {s : Select} :
    Sentence ts (.select s) ↔
      ∃ us vs, ts = us ++ vs ∧ Sentence us (.select { s with limit := none }) ∧
        Limited vs s.limit := by
  constructor
  · intro h
    cases h with
    | select hs hp hf hn hw ho hl =>
      exact ⟨_, _, by simp, .select hs hp hf hn hw ho .absent, hl⟩
  · rintro ⟨us, vs, rfl, h, hl⟩
    cases h with
    | select hs hp hf hn hw ho hl' =>
      cases hl'
      simpa using Sentence.select hs hp hf hn hw ho hl

theorem reads_select :
    Reads select (fun ts s => Sentence ts (.select s)) sentenceStops := by
  have hl (query : Select) := (reads_limit.weaken sentenceStops (by simp)).map
    fun limit => ({ query with limit } : Select)
  rw [select_eq]
  refine (reads_unlimited.bind hl ?_).mono ?_ ?_
  · intro _ _ _ _ h hr
    obtain ⟨_, hl, _⟩ := h
    exact clear_of_limit hl (by simp) (hr.weaken (by simp))
  · intro _ _ h
    obtain ⟨⟨hs, hn⟩, _, hl, rfl⟩ := h
    exact sentence_select_iff.2 ⟨_, _, rfl, hn ▸ hs, hl⟩
  · intro _ _ h
    obtain ⟨us, vs, rfl, hs, hl⟩ := sentence_select_iff.1 h
    exact .mk ⟨hs, rfl⟩ ⟨_, hl, rfl⟩

end DocBase.Sql.Parser
