import DocBase.Proofs.Sql.Descent
import DocBase.Proofs.Sql.ForeseenPhrases

namespace DocBase.Sql

namespace Grammar

/-- Items with a connective between them make up a phrase, joined to the left. -/
structure Chains (kind : TokenKind) (connective : Connective) (item phrase : Phrase Expression) :
    Prop where
  first : ∀ {ts e}, item ts e → phrase ts e
  join : ∀ {us vs t left right}, phrase us left → t.kind = kind → item vs right →
    phrase (us ++ t :: vs) (.logical left connective right)

theorem chains_and :
    Chains (.keyword .AND) .and (Condition .primary) (Condition .conjunction) where
  first := .ofPrimary
  join hl ht hr := .and hl (spelled_one ht) hr

theorem chains_or :
    Chains (.keyword .OR) .or (Condition .conjunction) (Condition .disjunction) where
  first := .ofConjunction
  join hl ht hr := .or hl (spelled_one ht) hr

/-- What makes up a phrase with any tokens before it that stand for `left`. -/
def Extends (phrase : Phrase Expression) (left : Expression) : Phrase Expression := fun ts e =>
  ∀ ⦃before : List Token⦄, phrase before left → phrase (before ++ ts) e

end Grammar

namespace Parser

open Grammar

section
variable {kind : TokenKind} {connective : Connective} {item : Parser Expression}
  {Q P : Phrase Expression} {stops : List TokenKind}

theorem completable_extends (left : Expression) : Completable (Extends P left) [] :=
  ⟨[], left, nofun, fun before hb => by rwa [List.nil_append, List.append_nil]⟩

theorem foreseen_chained (hk : kind.Usual) (hc : Chains kind connective Q P) (ht : Takes 0 item)
    (hs : item.Sound Q) {n : Nat}
    (hi : ∀ us : List Token, us.length ≤ n → Foreseen item Q us) (left : Expression)
    {ts : List Token} (hn : ts.length ≤ n) :
    Foreseen (chained kind connective item left) (Extends P left) ts := by
  -- Behind a connective the chain goes on from the joined condition, so `left` is general.
  induction hm : ts.length using Nat.strongRecOn generalizing ts left with
  | ind m ih =>
    rcases clear_or_cons kind ts with hclear | ⟨t, us, rfl, hkind⟩
    · apply Foreseen.stay
      intro us hu
      exact chained_stop hk.exact (hclear.of_head?_eq hu)
    · rw [List.length_cons] at hm hn
      have hrest (right : Expression) (mid : List Token) (hmid : item us = .ok right mid) :
          Foreseen (chained kind connective item (.logical left connective right))
            (Extends P (.logical left connective right)) mid := by
        have hlen := ht hmid
        exact ih mid.length (by omega) _ (by omega) rfl
      refine .behind (chained_join hk.exact ht hkind) (hkind ▸ hk.proper)
        (.bind hs (hi us (by omega)) hrest fun right => completable_extends _) ?_
      intro vs e h before hb
      obtain ⟨hright, he⟩ := h
      have hj := he (hc.join hb hkind hright)
      rwa [List.append_assoc] at hj

theorem foreseen_chain (hk : kind.Usual) (hc : Chains kind connective Q P) (ht : Takes 0 item)
    (hs : item.Sound Q) {n : Nat}
    (hi : ∀ us : List Token, us.length ≤ n → Foreseen item Q us)
    {ts : List Token} (hn : ts.length ≤ n) : Foreseen (chain kind connective item) P ts := by
  have hrest (left : Expression) (mid : List Token) (hmid : item ts = .ok left mid) :
      Foreseen (chained kind connective item left) (Extends P left) mid :=
    foreseen_chained hk hc ht hs hi left (Nat.le_trans (ht hmid) hn)
  refine (Foreseen.bind hs (hi ts hn) hrest completable_extends).mono ?_
  intro _ _ h
  obtain ⟨hl, he⟩ := h
  exact he (hc.first hl)

end

theorem expression_sound (level : Level) :
    (expression level.tightness).Sound (Condition level) := by
  intro ts _ _ hl h
  have hle : level.tightness ≤ 2 := by
    cases level <;> decide
  obtain ⟨used, tighter, he, ht, hc, _⟩ :=
    (expression_and_extend_sound ts.length).1 hle hl (Nat.le_refl _) h
  exact ⟨used, he, hc.loosen ht⟩

theorem completable_condition (level : Level) : Completable (Condition level) [] :=
  foresees_comparison.live.mono fun h => h.condition.loosen (by cases level <;> decide)

theorem foreseen_operand {ts : List Token} (hi : ∀ us : List Token, us.length < ts.length →
    Foreseen (expression 0) (Condition .disjunction) us) :
    Foreseen (operand (expression 0)) (Condition .primary) ts := by
  cases ts with
  | nil =>
    apply Foreseen.congr _ (.unexpected (completable_condition .primary) [])
    intro us hu
    rw [List.head?_eq_none_iff.1 hu]
    rfl
  | cons t us =>
    rcases operand_cases t with ⟨name, hn⟩ | hp | ⟨hn, hp⟩
    · exact .congr_cons (operand_of_name hn)
        ((foresees_comparison.foreseen (t :: us)).mono Compared.condition)
    · have hclose (e : Expression) := Foresees.expect (.sign .rightParen) (Foresees.pure e)
      refine .behind (operand_of_leftParen hp) (hp ▸ ⟨nofun, nofun⟩)
        (.bind (expression_sound .disjunction) (hi us (Nat.lt_succ_self _))
          (fun e mid _ => (hclose e).foreseen mid) fun e => (hclose e).live) ?_
      intro _ _ h
      obtain ⟨he, ⟨hr, rfl, rfl⟩⟩ := h
      exact .parenthesized (spelled_one hp) he (spelled_one hr)
    · exact .congr_cons (operand_of_other hn hp)
        (.unexpected (completable_condition .primary) (t :: us))

theorem foresees_expression : Foresees (expression 0) (Condition .disjunction) where
  live := completable_condition .disjunction
  foreseen ts := by
    -- Only parentheses lead back to the loosest layer, with a token less.
    induction hn : ts.length using Nat.strongRecOn generalizing ts with
    | ind n ih =>
      have ho (us : List Token) (hu : us.length ≤ n) :
          Foreseen (expression 2) (Condition .primary) us := by
        rw [expression_tight 0]
        exact foreseen_operand fun vs hv => ih vs.length (by omega) vs rfl
      have hc (us : List Token) (hu : us.length ≤ n) :
          Foreseen (expression 1) (Condition .conjunction) us := by
        rw [layered_expression.conjunction_eq]
        exact foreseen_chain (.keyword .AND) chains_and (takes_item 2)
          (expression_sound .primary) ho hu
      rw [layered_expression.disjunction_eq]
      exact foreseen_chain (.keyword .OR) chains_or (takes_item 1)
        (expression_sound .conjunction) hc (Nat.le_of_eq hn)

theorem foresees_condition : Foresees condition Where := by
  apply (Foresees.optional (.keyword .WHERE) (foresees_expression.map reads_expression some)
    none).mono
  intro _ _ h
  rcases h with ⟨hw, _, he, rfl⟩ | ⟨rfl, rfl⟩
  · exact .present (spelled_one hw) he
  · exact .absent

end Parser

end DocBase.Sql
