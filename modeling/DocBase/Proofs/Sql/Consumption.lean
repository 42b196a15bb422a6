import DocBase.Proofs.Sql.Phrases

namespace DocBase.Sql.Parser

variable {α β : Type}

/-- A parser that takes at least so many tokens when it succeeds. -/
def Takes (count : Nat) (p : Parser α) : Prop :=
  ∀ ⦃ts rest : List Token⦄ ⦃a : α⦄, p ts = .ok a rest → rest.length + count ≤ ts.length

section
variable {p : Parser α} {f : α → Parser β} {m n : Nat}

theorem Takes.weaken (h : Takes n p) (hm : m ≤ n) : Takes m p := by
  intro ts rest a hp
  exact Nat.le_trans (Nat.add_le_add_left hm _) (h hp)

theorem takes_pure (a : α) : Takes 0 (pure a : Parser α) := by
  intro ts rest b h
  obtain ⟨-, rfl⟩ := pure_eq_ok h
  exact Nat.le_refl _

theorem takes_throw (e : ParseError) : Takes n (throw e : Parser α) := nofun

theorem takes_unexpected : Takes n (do throw (← unexpected) : Parser α) := by
  intro ts rest a h
  exact absurd h unexpected_ne_ok

theorem Takes.bind (hp : Takes m p) (hf : ∀ a, Takes n (f a)) : Takes (m + n) (p >>= f) := by
  intro ts rest b h
  obtain ⟨a, mid, ha, hb⟩ := bind_eq_ok h
  have hm := hp ha
  have hn := hf a hb
  omega

/-- Where the first parser may take nothing, what is taken behind it counts alone. -/
theorem Takes.before (hp : Takes 0 p) (hf : ∀ a, Takes n (f a)) : Takes n (p >>= f) := by
  have h := hp.bind hf
  rwa [Nat.zero_add] at h

theorem takes_current : Takes 0 current := by
  intro ts rest a h
  cases h
  exact Nat.le_refl _

theorem takes_currentKind : Takes 0 currentKind := by
  intro ts rest a h
  cases h
  exact Nat.le_refl _

theorem takes_advance : Takes 0 advance := by
  intro ts rest a h
  cases h
  exact Nat.le_trans (Nat.le_of_eq List.length_tail) (Nat.sub_le _ _)

theorem takes_skip (kind : TokenKind) : Takes 0 (skip kind) := by
  intro ts rest a h
  rw [skip] at h
  obtain ⟨b, mid, hb, h₁⟩ := bind_eq_ok h
  cases hb
  split at h₁
  · exact takes_advance.before (fun _ => takes_pure _) h₁
  · exact takes_pure _ h₁

theorem takes_expect (kind : TokenKind) : Takes 1 (expect kind) := by
  intro ts rest a h
  cases ts with
  | nil => cases h
  | cons t us =>
    rw [expect, current_bind] at h
    dsimp only [List.head?_cons] at h
    split at h
    · cases h
      exact Nat.le_refl _
    · split at h <;> cases h

theorem takes_identifier : Takes 1 identifier := by
  intro ts rest a h
  cases ts with
  | nil => cases h
  | cons t us =>
    rw [identifier, current_bind] at h
    dsimp only [List.head?_cons] at h
    cases hk : t.kind with
    | identifier name =>
      rw [hk] at h
      cases h
      exact Nat.le_refl _
    | _ =>
      rw [hk] at h
      cases h

theorem takes_columnRef : Takes 1 columnRef := by
  apply takes_identifier.bind (n := 0)
  intro first
  apply (takes_skip _).before
  intro dot
  split
  · exact (takes_identifier.weaken (Nat.zero_le 1)).before fun _ => takes_pure _
  · exact takes_pure _

theorem takes_operator (column : ColumnRef) : Takes 0 (operator column) := by
  apply (takes_skip _).before
  intro isKeyword
  split
  · apply (takes_skip _).before
    intro negated
    split <;> exact takes_pure _
  · apply takes_current.before
    intro t
    cases t with
    | none => exact takes_throw _
    | some t =>
      dsimp only
      cases comparisonSign t.kind with
      | ok operator => exact takes_advance.before fun _ => takes_pure _
      | error e =>
        dsimp only
        split <;> exact takes_throw _

theorem takes_number (kind : TokenKind) (text : String) : Takes 0 (number kind text) := by
  unfold number
  cases Numeral.ofText? text.toList with
  | none => exact takes_throw _
  | some n =>
    dsimp only
    split <;> exact takes_pure _

theorem takes_negated : Takes 0 negated := by
  apply takes_current.before
  intro t
  cases t with
  | none => exact takes_throw _
  | some t =>
    dsimp only
    have hn := (takes_number t.kind ("-" ++ t.literal)).before fun value =>
      takes_advance.before fun _ => takes_pure value
    cases hk : t.kind with
    | integer | float => rwa [hk] at hn
    | _ => exact takes_throw _

theorem takes_literal : Takes 0 literal := by
  apply takes_current.before
  intro t
  cases t with
  | none => exact takes_throw _
  | some t =>
    dsimp only
    have hn := (takes_number t.kind t.literal).before fun value =>
      takes_advance.before fun _ => takes_pure value
    have hv (value : Value) : Takes 0 (do advance; return value) :=
      takes_advance.before fun _ => takes_pure value
    cases hk : t.kind with
    | integer | float => rwa [hk] at hn
    | string text => exact hv _
    | keyword k =>
      cases k with
      | NULL | TRUE | FALSE => exact hv _
      | _ => exact takes_unexpected
    | sign s =>
      cases s with
      | minus => exact takes_advance.before fun _ => takes_negated
      | _ => exact takes_unexpected
    | _ => exact takes_unexpected

theorem takes_comparison : Takes 1 comparison := by
  apply takes_columnRef.bind (n := 0)
  intro column
  apply (takes_operator column).before
  intro operator
  exact takes_literal.before fun _ => takes_pure _

theorem takes_operand {inner : Parser Expression} (h : Takes 0 inner) :
    Takes 1 (operand inner) := by
  apply takes_currentKind.before
  intro kind
  cases kind with
  | none => exact takes_unexpected
  | some kind =>
    cases kind with
    | identifier name => exact takes_comparison
    | sign s =>
      cases s with
      | leftParen =>
        apply takes_advance.before
        intro _
        apply h.before
        intro expression
        exact (takes_expect _).bind fun _ => takes_pure _
      | _ => exact takes_unexpected
    | _ => exact takes_unexpected

theorem takes_expressionWith_and_extend (fuel : Nat) :
    (∀ minimum, Takes 1 (expressionWith fuel minimum)) ∧
      ∀ minimum left, Takes 0 (extend fuel minimum left) := by
  induction fuel with
  | zero => exact ⟨fun _ => takes_throw _, fun _ left => takes_pure left⟩
  | succ fuel ih =>
    obtain ⟨he, hx⟩ := ih
    constructor
    · intro minimum
      exact (takes_operand ((he 0).weaken (Nat.zero_le 1))).bind (hx minimum)
    · intro minimum left
      apply takes_currentKind.before
      intro kind
      cases kind with
      | none => exact takes_pure _
      | some kind =>
        dsimp only
        split
        · apply takes_advance.before
          intro _
          apply ((he _).weaken (Nat.zero_le 1)).before
          intro right
          exact hx minimum _
        · exact takes_pure _

theorem takes_expression (minimum : Nat) : Takes 1 (expression minimum) := by
  intro ts rest e h
  exact (takes_expressionWith_and_extend ts.length).1 minimum h

theorem takes_item (minimum : Nat) : Takes 0 (expression minimum) :=
  (takes_expression minimum).weaken (Nat.zero_le 1)

end

section
variable {p q : Parser α} {f g : α → Parser β} {ts us : List Token}

theorem bind_congr (hp : p ts = q us) (hf : ∀ a rest, q us = .ok a rest → f a rest = g a rest) :
    (p >>= f) ts = (q >>= g) us := by
  change EStateM.bind p f ts = EStateM.bind q g us
  rw [EStateM.bind, EStateM.bind, hp]
  cases hq : q us with
  | ok a rest => exact hf a rest hq
  | error e rest => rfl

end

end DocBase.Sql.Parser
