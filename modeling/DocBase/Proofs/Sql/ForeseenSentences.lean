import DocBase.Proofs.Sql.ForeseenConditions
import DocBase.Proofs.Sql.ForeseenTables
import DocBase.Proofs.Sql.Sentences

namespace DocBase.Sql.Parser

open Grammar

theorem foresees_projection : Foresees projection Projected := by
  have hc := (foresees_commaList reads_columnRef foresees_columnRef).map
    (reads_commaList reads_columnRef (by simp)) Projection.columns
  apply (Foresees.skipElse (.sign .asterisk) (.pure Projection.all) hc).mono
  intro _ _ h
  rcases h with ⟨ha, rfl, rfl⟩ | ⟨_, hl, rfl⟩
  · exact .all (spelled_one ha)
  · exact .columns hl

theorem foresees_orderKey : Foresees orderKey Key := by
  have ha (column : ColumnRef) := Foresees.optional (.keyword .ASC)
    (.pure (⟨column, .ascending⟩ : OrderKey)) ⟨column, .ascending⟩
  have hd (column : ColumnRef) := Foresees.skipElse (.keyword .DESC)
    (.pure (⟨column, .descending⟩ : OrderKey)) (ha column)
  apply (foresees_columnRef.bind reads_columnRef hd).mono
  intro _ _ h
  obtain ⟨hc, ⟨hd, rfl, rfl⟩ | ⟨ha, rfl, rfl⟩ | ⟨rfl, rfl⟩⟩ := h
  · exact .mk hc (.descending (spelled_one hd))
  · exact .mk hc (.ascending (spelled_one ha))
  · exact .mk hc .silent

theorem foresees_order : Foresees order OrderBy := by
  have hk := Foresees.expect (.keyword .BY) (foresees_commaList reads_orderKey foresees_orderKey)
  apply (Foresees.optional (.keyword .ORDER) hk []).mono
  intro _ _ h
  rcases h with ⟨ho, hb, hl⟩ | ⟨rfl, rfl⟩
  · exact .present (spelled_two ho hb) hl
  · exact .absent

theorem completable_unsigned : Completable Unsigned [] := by
  obtain ⟨t, ht, hw⟩ := exists_writable_integer
  exact ⟨[t], _, List.forall_mem_singleton.2 hw, .mk ht (by decide)⟩

theorem foresees_unsigned : Foresees unsigned Unsigned where
  live := completable_unsigned
  foreseen ts := by
    apply Foreseen.current _ completable_unsigned
    · intro t us _ _
      by_cases hk : t.kind = .integer
      · rw [if_pos hk]
        by_cases hn : digitsValue t.literal.toList < UInt64.size
        · rw [if_pos hn]
          exact .take (fun _ => rfl) (hk ▸ ⟨nofun, nofun⟩) us
        · rw [if_neg hn]
          exact .placeless (.invalidLiteral _)
      · rw [if_neg hk]
        split
        · exact .placeless (.invalidLiteral _)
        · exact .unexpected completable_unsigned _
    · intro t us hk
      rw [if_neg (by simp [hk]), if_neg (by simp [hk])]
      apply unexpected_of_atEnd
      rintro u ⟨⟩
      exact hk

theorem foresees_limit : Foresees limit Limited := by
  have ho (first : UInt64) := Foresees.optional (.keyword .OFFSET)
    (foresees_unsigned.map reads_unsigned fun offset => some (⟨first, offset⟩ : Limit))
    (some ⟨first, 0⟩)
  have hc (first : UInt64) := Foresees.skipElse (.sign .comma)
    (foresees_unsigned.map reads_unsigned fun count => some (⟨count, first⟩ : Limit)) (ho first)
  apply (Foresees.optional (.keyword .LIMIT) (foresees_unsigned.bind reads_unsigned hc) none).mono
  intro _ _ h
  rcases h with ⟨hl, hn, ⟨hc, _, hm, rfl⟩ | ⟨ho, _, hm, rfl⟩ | ⟨rfl, rfl⟩⟩ | ⟨rfl, rfl⟩
  · exact .comma (spelled_one hl) hn (spelled_one hc) hm
  · exact .offset (spelled_one hl) hn (spelled_one ho) hm
  · rw [List.append_nil]
    exact .count (spelled_one hl) hn
  · exact .absent

theorem foresees_select : Foresees select fun ts s => Sentence ts (.select s) := by
  have hl (projection : Projection) (table : String) (condition : Option Expression)
      (order : List OrderKey) := foresees_limit.map reads_limit
    fun limit => (⟨projection, table, condition, order, limit⟩ : Select)
  have ho (projection : Projection) (table : String) (condition : Option Expression) :=
    foresees_order.bind reads_order (hl projection table condition)
  have hw (projection : Projection) (table : String) :=
    foresees_condition.bind reads_condition (ho projection table)
  have hf (projection : Projection) := Foresees.expect (.keyword .FROM)
    (foresees_identifier.bind reads_identifier (hw projection))
  apply (Foresees.expect (.keyword .SELECT) (foresees_projection.bind reads_projection hf)).mono
  intro _ _ h
  obtain ⟨hs, hp, hf, hn, hw, ho, _, hl, rfl⟩ := h
  exact .select (spelled_one hs) hp (spelled_one hf) hn hw ho hl

theorem foresees_columnList : Foresees (do
    if ← sees (.sign .leftParen) then some <$> parenthesized identifier else pure none)
    ColumnList where
  live := ⟨[], none, nofun, .absent⟩
  foreseen ts := by
    rcases clear_or_cons (.sign .leftParen) ts with hc | ⟨t, us, rfl, ht⟩
    · apply Foreseen.stay
      intro us hu
      rw [bind_of_ok (sees_clear (.sign .leftParen) (hc.of_head?_eq hu))]
      rfl
    · have hp := (foresees_parenthesized reads_identifier (by simp) foresees_identifier).functor
        (reads_parenthesized reads_identifier (by simp) (by simp)) some
      refine .congr_cons (fun vs => bind_of_ok (sees_cons (.sign .leftParen) ht vs))
        ((hp.foreseen (t :: us)).mono ?_)
      intro _ _ h
      obtain ⟨_, hn, rfl⟩ := h
      exact .present hn

theorem foresees_insert : Foresees insert fun ts s => Sentence ts (.insert s) := by
  have htuple := foresees_parenthesized reads_literal (by simp) foresees_literal
  have hreads := reads_parenthesized reads_literal (by simp) (by simp)
  have ht (table : String) (columns : Option (List String)) := Foresees.expect (.keyword .VALUES)
    ((foresees_commaList hreads htuple).map (reads_commaList hreads (by simp))
      fun tuples => (⟨table, columns, tuples⟩ : Insert))
  have hc (table : String) := foresees_columnList.bind reads_columnList (ht table)
  simp only [← ite_bind] at hc
  apply (Foresees.expect (.keyword .INSERT) (.expect (.keyword .INTO)
    (foresees_identifier.bind reads_identifier hc))).mono
  intro _ _ h
  obtain ⟨hi, hw, hn, hc, hv, _, ht, rfl⟩ := h
  exact .insert (spelled_two hi hw) hn hc (spelled_one hv) ht

theorem foresees_assignment : Foresees assignment Assigned := by
  have hl (column : String) := Foresees.expect (.sign .equal)
    (foresees_literal.map reads_literal fun literal => (⟨column, literal⟩ : Assignment))
  apply (foresees_identifier.bind reads_identifier hl).mono
  intro _ _ h
  obtain ⟨hn, he, _, hl, rfl⟩ := h
  exact .mk hn (spelled_one he) hl

theorem foresees_update : Foresees update fun ts s => Sentence ts (.update s) := by
  have hc (table : String) (assignments : List Assignment) :=
    foresees_condition.map reads_condition
      fun condition => (⟨table, assignments, condition⟩ : Update)
  have hs (table : String) := Foresees.expect (.keyword .SET)
    ((foresees_commaList reads_assignment foresees_assignment).bind
      (reads_commaList reads_assignment (by simp)) (hc table))
  apply (Foresees.expect (.keyword .UPDATE) (foresees_identifier.bind reads_identifier hs)).mono
  intro _ _ h
  obtain ⟨hu, hn, hs, hl, _, hc, rfl⟩ := h
  exact .update (spelled_one hu) hn (spelled_one hs) hl hc

theorem foresees_delete : Foresees delete fun ts s => Sentence ts (.delete s) := by
  have hc (table : String) := foresees_condition.map reads_condition
    fun condition => (⟨table, condition⟩ : Delete)
  apply (Foresees.expect (.keyword .DELETE) (.expect (.keyword .FROM)
    (foresees_identifier.bind reads_identifier hc))).mono
  intro _ _ h
  obtain ⟨hd, hf, hn, _, hc, rfl⟩ := h
  exact .delete (spelled_two hd hf) hn hc

theorem completable_sentence : Completable Sentence [] :=
  foresees_drop.live.imp fun _ s h => ⟨.drop s, h⟩

theorem foreseen_bodyOf (k : Keyword) (ts : List Token) : Foreseen (bodyOf k) Sentence ts := by
  have hkind {α : Type} {p : Parser α} {g : α → Statement} {stops : List TokenKind}
      (hr : Reads p (fun ts q => Sentence ts (g q)) stops)
      (h : Foresees p fun ts q => Sentence ts (g q)) : Foreseen (g <$> p) Sentence ts := by
    apply ((h.functor hr g).foreseen ts).mono
    rintro _ _ ⟨_, hs, rfl⟩
    exact hs
  cases k with
  | SELECT => exact hkind reads_select foresees_select
  | INSERT => exact hkind reads_insert foresees_insert
  | UPDATE => exact hkind reads_update foresees_update
  | DELETE => exact hkind reads_delete foresees_delete
  | CREATE => exact hkind reads_create foresees_create
  | DROP => exact hkind reads_drop foresees_drop
  | _ => exact .unexpected completable_sentence ts

theorem statementBody_of_other {ts : List Token} (h : ∀ t ∈ ts.head?, ∀ k, t.kind ≠ .keyword k) :
    statementBody ts = (do throw (← unexpected) : Parser Statement) ts := by
  rw [statementBody, currentKind_bind]
  cases ts with
  | nil => rfl
  | cons t us =>
    dsimp only [List.head?_cons, Option.map_some]
    cases hk : t.kind with
    | keyword k => exact absurd hk (h t rfl k)
    | _ => rfl

theorem foresees_statementBody : Foresees statementBody Sentence where
  live := completable_sentence
  foreseen ts := by
    by_cases hk : ∃ t us k, ts = t :: us ∧ t.kind = .keyword k
    · obtain ⟨t, us, k, rfl, hk⟩ := hk
      exact .congr_cons (statementBody_of_keyword hk) (foreseen_bodyOf k (t :: us))
    · refine .congr (fun vs hv => statementBody_of_other ?_) (.unexpected completable_sentence ts)
      intro t ht k hkind
      obtain ⟨us, rfl⟩ := List.head?_eq_some_iff.1 (hv.symm.trans ht)
      exact hk ⟨t, us, k, rfl, hkind⟩

end DocBase.Sql.Parser
