import DocBase.Proofs.Sql.Conditions
import DocBase.Proofs.Sql.Foresight

namespace DocBase.Sql.Parser

open Grammar

variable {α β : Type}

theorem completable_name : Completable Name [] := by
  obtain ⟨t, name, hk, hw⟩ := exists_writable_name
  exact ⟨[t], name, List.forall_mem_singleton.2 hw, .mk hk⟩

theorem foresees_identifier : Foresees identifier Name where
  live := completable_name
  foreseen ts := by
    apply Foreseen.current _ completable_name
    · intro t us _ ht
      cases hk : t.kind with
      | identifier name =>
        exact .take (fun _ => rfl) (hk ▸ ⟨nofun, nofun⟩) us
      | endOfText => exact absurd hk ht
      | _ => exact .telling (.expectedToken _ us ht) completable_name
    · intro t us hk
      rw [hk]
      rfl

theorem foresees_columnRef : Foresees columnRef Column := by
  have hq (first : String) := Foresees.optional (.sign .dot)
    (foresees_identifier.map reads_identifier fun name => ⟨some first, name⟩)
    (⟨none, first⟩ : ColumnRef)
  apply (foresees_identifier.bind reads_identifier hq).mono
  intro _ _ h
  obtain ⟨hn, ⟨ht, _, hu, rfl⟩ | ⟨rfl, rfl⟩⟩ := h
  · exact .qualified hn (spelled_one ht) hu
  · rw [List.append_nil]
    exact .plain hn

theorem number_cases (kind : TokenKind) (text : String) :
    (∃ value, number kind text = pure value) ∨ number kind text = throw (.invalidLiteral text) := by
  unfold number
  cases Numeral.ofText? text.toList with
  | none => exact .inr rfl
  | some n =>
    dsimp only
    split <;> exact .inl ⟨_, rfl⟩

theorem foreseen_number {P : Phrase Value} (kind : TokenKind) (text : String) {t : Token}
    (ht : t.kind.Proper) (us : List Token) :
    Foreseen (do let value ← number kind text; advance; return value) P (t :: us) := by
  rcases number_cases kind text with ⟨value, hn⟩ | hn
  · rw [hn]
    exact .take (fun _ => rfl) ht us
  · rw [hn]
    exact .invalid rfl (.invalidLiteral text)

theorem foresees_negated : Foresees negated (Magnitude true) := by
  have hlive : Completable (Magnitude true) [] := by
    obtain ⟨t, ht, hw⟩ := exists_writable_integer
    exact ⟨[t], _, List.forall_mem_singleton.2 hw, .integer ht⟩
  refine ⟨hlive, fun ts => ?_⟩
  apply Foreseen.current _ hlive
  · intro t us _ ht
    cases hk : t.kind with
    | integer | float =>
      exact foreseen_number _ _ (hk ▸ ⟨nofun, nofun⟩) us
    | endOfText => exact absurd hk ht
    | _ => exact .placeless (.invalidLiteral _)
  · intro t us hk
    rw [hk]
    rfl

theorem completable_literal : Completable Literal [] := by
  obtain ⟨t, hk, hw⟩ := (TokenKind.Usual.keyword .NULL).written
  exact ⟨[t], _, List.forall_mem_singleton.2 hw, .null (spelled_one hk)⟩

theorem foresees_literal : Foresees literal Literal where
  live := completable_literal
  foreseen ts := by
    apply Foreseen.current _ completable_literal
    · intro t us _ ht
      cases hk : t.kind with
      | integer | float => exact foreseen_number _ _ (hk ▸ ⟨nofun, nofun⟩) us
      | string text => exact .take (fun _ => rfl) (hk ▸ ⟨nofun, nofun⟩) us
      | keyword k =>
        cases k with
        | NULL | TRUE | FALSE => exact .take (fun _ => rfl) (hk ▸ ⟨nofun, nofun⟩) us
        | _ => exact .unexpected completable_literal _
      | sign s =>
        cases s with
        | minus =>
          refine .behind (fun _ => rfl) (hk ▸ ⟨nofun, nofun⟩) (foresees_negated.foreseen us) ?_
          intro _ _ h
          exact h.literal (.present (spelled_one hk))
        | _ => exact .unexpected completable_literal _
      | _ => exact .unexpected completable_literal _
    · intro t us hk
      rw [hk]
      exact unexpected_of_atEnd fun u hu => by
        cases hu
        exact hk

theorem completable_symbol : Completable Symbol [] := by
  obtain ⟨t, hk, hw⟩ := (TokenKind.Usual.sign .equal).written
  exact ⟨[t], .equal, List.forall_mem_singleton.2 hw, .mk (by rw [hk]; rfl)⟩

theorem foresees_operator (column : ColumnRef) : Foresees (operator column) Comparator := by
  have hi := Foresees.optional (.keyword .NOT) (Foresees.pure Operator.isNot) .is
  refine (Foresees.skipElse (Q := Symbol) (.keyword .IS) hi ⟨completable_symbol, fun ts => ?_⟩).mono
    ?_
  · apply Foreseen.current _ completable_symbol
    · intro t us _ ht
      cases ho : comparisonSign t.kind with
      | ok operator =>
        refine .take (fun _ => rfl) ⟨fun hk => ?_, ht⟩ us
        rw [hk] at ho
        cases ho
      | error e =>
        dsimp only
        rw [if_neg ht]
        exact .placeless (.invalidSyntax _)
    · intro t us hk
      rw [hk]
      rfl
  · intro _ _ h
    rcases h with ⟨hi, ⟨hn, rfl, rfl⟩ | ⟨rfl, rfl⟩⟩ | h
    · exact .isNot (spelled_two hi hn)
    · exact .is (spelled_one hi)
    · exact h.comparator

theorem foresees_comparison : Foresees comparison Compared := by
  have hl (column : ColumnRef) (operator : Operator) := foresees_literal.map reads_literal
    fun literal => Expression.comparison column operator literal
  have ho (column : ColumnRef) := (foresees_operator column).bind (reads_operator column)
    (hl column)
  exact foresees_columnRef.bind reads_columnRef ho

section
variable {item : Parser α} {P : Phrase α} {stops : List TokenKind}

def items (item : Parser α) : Parser (List α) := fun ts => commaTail item ts.length ts

theorem commaTail_stop {ts : List Token} (h : Clear [.sign .comma] ts) (fuel : Nat) :
    commaTail item fuel ts = .ok [] ts := by
  cases fuel with
  | zero => rfl
  | succ fuel =>
    rw [commaTail, bind_of_ok (skip_clear (.sign _) h)]
    rfl

theorem commaTail_more {t : Token} (ht : t.kind = .sign .comma) (fuel : Nat) (us : List Token) :
    commaTail item (fuel + 1) (t :: us) =
      (item >>= fun first => commaTail item fuel >>= fun rest => pure (first :: rest)) us := by
  rw [commaTail, bind_of_ok (skip_cons (.sign _) ht us)]
  rfl

/-- Fuel beyond the number of tokens makes no difference. -/
theorem commaTail_congr (hi : Takes 0 item) {fuel more : Nat} {ts : List Token}
    (hf : ts.length ≤ fuel) (hm : ts.length ≤ more) :
    commaTail item fuel ts = commaTail item more ts := by
  induction fuel generalizing more ts with
  | zero =>
    obtain rfl := List.eq_nil_of_length_eq_zero (Nat.le_zero.1 hf)
    have hc : Clear [.sign .comma] [] := fun _ ht => nomatch ht
    rw [commaTail_stop hc, commaTail_stop hc]
  | succ fuel ih =>
    rcases clear_or_cons (.sign .comma) ts with hc | ⟨t, us, rfl, ht⟩
    · rw [commaTail_stop hc, commaTail_stop hc]
    · obtain ⟨more, rfl⟩ := Nat.exists_eq_add_of_le' (Nat.le_trans (Nat.succ_pos us.length) hm)
      simp only [List.length_cons] at hf hm
      rw [commaTail_more ht, commaTail_more ht]
      apply bind_congr rfl
      intro first rest hr
      have hlen := hi hr
      exact bind_congr (ih (by omega) (by omega)) fun _ _ _ => rfl

theorem items_more (hi : Takes 0 item) {t : Token} (ht : t.kind = .sign .comma)
    (us : List Token) : items item (t :: us) =
      (item >>= fun first => items item >>= fun rest => pure (first :: rest)) us := by
  rw [items, List.length_cons, commaTail_more ht]
  apply bind_congr rfl
  intro first rest hr
  have hlen := hi hr
  exact bind_congr (commaTail_congr hi (by omega) (Nat.le_refl _)) fun _ _ _ => rfl

theorem items_sound (hr : Reads item P stops) : (items item).Sound (Behind P) :=
  fun ts _ _ hl h => commaTail_sound hr ts.length hl h

theorem completable_behind : Completable (Behind P) [] :=
  (Completable.silent []).mono .inr

theorem foreseen_listed (hr : Reads item P stops) (h : Foresees item P) {ts : List Token}
    (hi : ∀ mid : List Token, mid.length ≤ ts.length → Foreseen (items item) (Behind P) mid) :
    Foreseen (item >>= fun first => items item >>= fun rest => pure (first :: rest)) (Listed P)
      ts := by
  have hrest (first : α) {mid : List Token} (hlen : mid.length ≤ ts.length) :=
    Foreseen.bind (items_sound hr) (hi mid hlen)
      (fun rest mid' _ => (Foresees.pure (first :: rest)).foreseen mid')
      fun rest => .silent (first :: rest)
  refine (Foreseen.bind hr.isSound (h.foreseen ts)
    (fun first mid hmid => hrest first (h.takes hmid))
    fun first => completable_behind.sequence fun rest => .silent (first :: rest)).mono ?_
  intro _ _ hs
  obtain ⟨hi, hb, rfl, rfl⟩ := hs
  rw [List.append_nil]
  exact listed_iff.2 ⟨_, _, _, _, rfl, rfl, hi, hb⟩

theorem foreseen_items (hr : Reads item P stops) (h : Foresees item P) (ts : List Token) :
    Foreseen (items item) (Behind P) ts := by
  induction hn : ts.length using Nat.strongRecOn generalizing ts with
  | ind n ih =>
    rcases clear_or_cons (.sign .comma) ts with hc | ⟨t, us, rfl, ht⟩
    · apply Foreseen.stay
      intro us hu
      exact commaTail_stop (hc.of_head?_eq hu) us.length
    · rw [List.length_cons] at hn
      have hrest := foreseen_listed hr h fun mid (hlen : mid.length ≤ us.length) =>
        ih mid.length (by omega) mid rfl
      have hcomma := (TokenKind.Usual.sign .comma).proper
      exact .behind (items_more h.takes ht) (ht ▸ hcomma) hrest fun hs => .inl (.mk ht hs)

theorem foresees_commaList (hr : Reads item P stops) (h : Foresees item P) :
    Foresees (commaList item) (Listed P) where
  live := h.live.imp fun _ a ha => ⟨[a], .one ha⟩
  foreseen _ := foreseen_listed hr h fun mid _ => foreseen_items hr h mid

theorem foresees_parenthesized (hr : Reads item P stops) (hs : .sign .comma ∉ stops)
    (h : Foresees item P) : Foresees (parenthesized item) (Parenthesized (Listed P)) := by
  have hb (items : List α) := Foresees.expect (.sign .rightParen) (Foresees.pure items)
  apply (Foresees.expect (.sign .leftParen)
    ((foresees_commaList hr h).bind (reads_commaList hr hs) hb)).mono
  intro _ _ h
  obtain ⟨hl, hi, ⟨hr, rfl, rfl⟩⟩ := h
  exact .mk (spelled_one hl) hi (spelled_one hr)

end

end DocBase.Sql.Parser
