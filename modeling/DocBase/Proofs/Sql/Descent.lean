import DocBase.Proofs.Sql.Conditions
import DocBase.Proofs.Sql.Consumption

namespace DocBase.Sql.Parser

/-- Further items behind a connective, joined to the left. Every connective is a token, so their
number bounds the items. -/
def chainTail (kind : TokenKind) (connective : Connective) (item : Parser Expression) :
    Nat → Expression → Parser Expression
  | 0, left => return left
  | fuel + 1, left => do
    if ← skip kind then
      let right ← item
      chainTail kind connective item fuel (.logical left connective right)
    else return left

def chain (kind : TokenKind) (connective : Connective) (item : Parser Expression) :
    Parser Expression := do
  let first ← item
  chainTail kind connective item (← get).length first

def primary (inner : Parser Expression) : Parser Expression := do
  if ← skip (.sign .leftParen) then
    let expression ← inner
    let _ ← expect (.sign .rightParen)
    return expression
  else if ← sees (.identifier "") then comparison
  else throw (← unexpected)

/-- Parsers of three layers, each of which is made of the next one and the last of the first. -/
structure Layered (disjunction conjunction operand : Parser Expression) : Prop where
  disjunction_eq : disjunction = chain (.keyword .OR) .or conjunction
  conjunction_eq : conjunction = chain (.keyword .AND) .and operand
  operand_eq : operand = primary disjunction

variable {minimum : Nat} {left : Expression} {ts : List Token}

theorem operand_of_other {inner : Parser Expression} {t : Token}
    (hn : ∀ name, t.kind ≠ .identifier name) (hp : t.kind ≠ .sign .leftParen) (ts : List Token) :
    operand inner (t :: ts) = (do throw (← unexpected) : Parser Expression) (t :: ts) := by
  rw [operand, currentKind_bind]
  dsimp only [List.head?_cons, Option.map_some]
  cases hk : t.kind with
  | identifier name => exact absurd hk (hn name)
  | sign s =>
    cases s with
    | leftParen => exact absurd hk hp
    | _ => rfl
  | _ => rfl

theorem operand_cases (t : Token) :
    (∃ name, t.kind = .identifier name) ∨ t.kind = .sign .leftParen ∨
      (∀ name, t.kind ≠ .identifier name) ∧ t.kind ≠ .sign .leftParen := by
  by_cases hn : ∃ name, t.kind = .identifier name
  · exact .inl hn
  · by_cases hp : t.kind = .sign .leftParen
    · exact .inr (.inl hp)
    · exact .inr (.inr ⟨not_exists.1 hn, hp⟩)

theorem operand_congr {inner other : Parser Expression}
    (h : ∀ us : List Token, us.length < ts.length → inner us = other us) :
    operand inner ts = operand other ts := by
  cases ts with
  | nil => rfl
  | cons t us =>
    rcases operand_cases t with ⟨name, hn⟩ | hp | ⟨hn, hp⟩
    · rw [operand_of_name hn, operand_of_name hn]
    · rw [operand_of_leftParen hp, operand_of_leftParen hp]
      exact bind_congr (h us (Nat.lt_succ_self _)) fun _ _ _ => rfl
    · rw [operand_of_other hn hp, operand_of_other hn hp]

theorem sees_name (t : Token) (ts : List Token) :
    sees (.identifier "") (t :: ts) = .ok (t.kind matches .identifier _) (t :: ts) := by
  rw [sees, List.head?_cons, Option.any_some]
  cases t.kind <;> rfl

theorem primary_eq_operand (inner : Parser Expression) : primary inner = operand inner := by
  funext ts
  cases ts with
  | nil => rfl
  | cons t us =>
    rw [primary]
    rcases operand_cases t with ⟨name, hn⟩ | hp | ⟨hn, hp⟩
    · have hc : Clear [.sign .leftParen] (t :: us) := .cons (by simp [hn])
      rw [operand_of_name hn, bind_of_ok (skip_clear (.sign _) hc), if_neg Bool.false_ne_true,
        bind_of_ok (sees_name t us), hn]
      rfl
    · rw [operand_of_leftParen hp, bind_of_ok (skip_cons (.sign _) hp us)]
      rfl
    · have hc : Clear [.sign .leftParen] (t :: us) := .cons (by simp [hp])
      rw [operand_of_other hn hp, bind_of_ok (skip_clear (.sign _) hc), if_neg Bool.false_ne_true,
        bind_of_ok (sees_name t us)]
      cases hk : t.kind with
      | identifier name => exact absurd hk (hn name)
      | _ => rfl

theorem length_lt_of_operand {fuel : Nat} {rest : List Token}
    (h : operand (expressionWith fuel 0) ts = .ok left rest) : rest.length < ts.length :=
  takes_operand (((takes_expressionWith_and_extend fuel).1 0).weaken (Nat.zero_le 1)) h

theorem loose_nil (minimum : Nat) : Loose minimum [] :=
  fun t ht => absurd ht (Option.not_mem_none t)

/-- Fuel beyond the number of tokens makes no difference. -/
theorem expressionWith_and_extend_congr (fuel : Nat) :
    (∀ more minimum ts, ts.length ≤ fuel → ts.length ≤ more →
      expressionWith fuel minimum ts = expressionWith more minimum ts) ∧
    ∀ more minimum left ts, ts.length ≤ fuel → ts.length ≤ more →
      extend fuel minimum left ts = extend more minimum left ts := by
  induction fuel with
  | zero =>
    constructor
    · intro more minimum ts hf _
      obtain rfl := List.eq_nil_of_length_eq_zero (Nat.le_zero.1 hf)
      cases more <;> rfl
    · intro more minimum left ts hf _
      obtain rfl := List.eq_nil_of_length_eq_zero (Nat.le_zero.1 hf)
      cases more <;> rfl
  | succ fuel ih =>
    obtain ⟨he, hx⟩ := ih
    constructor
    · intro more minimum ts hf hm
      cases more with
      | zero =>
        obtain rfl := List.eq_nil_of_length_eq_zero (Nat.le_zero.1 hm)
        rfl
      | succ more =>
        rw [expressionWith, expressionWith]
        apply bind_congr
        · apply operand_congr
          intro us hu
          exact he more 0 us (by omega) (by omega)
        · intro left rest hl
          have hlt := length_lt_of_operand hl
          exact hx more minimum left rest (by omega) (by omega)
    · intro more minimum left ts hf hm
      by_cases hs : Loose minimum ts
      · rw [extend_stop hs, extend_stop hs]
      cases ts with
      | nil => exact absurd (loose_nil minimum) hs
      | cons t us =>
        have hp : minimum < precedence t.kind := Nat.lt_of_not_le fun hle => hs (.cons hle)
        obtain ⟨more, rfl⟩ := Nat.exists_eq_add_of_le' (Nat.le_trans (Nat.succ_pos us.length) hm)
        simp only [List.length_cons] at hf hm
        rw [extend_join hp, extend_join hp]
        apply bind_congr
        · exact he more _ us (by omega) (by omega)
        · intro right rest hr
          have hlen := (takes_expressionWith_and_extend more).1 _ hr
          exact hx more minimum _ rest (by omega) (by omega)

theorem expressionWith_of_length_le {fuel : Nat} (h : ts.length ≤ fuel) :
    expressionWith fuel minimum ts = expression minimum ts :=
  (expressionWith_and_extend_congr fuel).1 ts.length minimum ts h (Nat.le_refl _)

/-- Joins what follows a condition to it, with as much fuel as there are tokens. -/
def extended (minimum : Nat) (left : Expression) : Parser Expression :=
  fun ts => extend ts.length minimum left ts

theorem extend_of_length_le {fuel : Nat} (h : ts.length ≤ fuel) :
    extend fuel minimum left ts = extended minimum left ts :=
  (expressionWith_and_extend_congr fuel).2 ts.length minimum left ts h (Nat.le_refl _)

theorem expression_eq (minimum : Nat) :
    expression minimum = operand (expression 0) >>= extended minimum := by
  funext ts
  change expressionWith ts.length minimum ts = _
  cases hts : ts.length with
  | zero =>
    obtain rfl := List.eq_nil_of_length_eq_zero hts
    rfl
  | succ fuel =>
    rw [expressionWith]
    apply bind_congr
    · apply operand_congr
      intro us hu
      exact expressionWith_of_length_le (by omega)
    · intro left rest hl
      have hlt := takes_operand (takes_item 0) hl
      exact extend_of_length_le (by omega)

theorem extended_stop (h : Loose minimum ts) : extended minimum left ts = .ok left ts :=
  extend_stop h

theorem extended_join {t : Token} (h : minimum < precedence t.kind) (us : List Token) :
    extended minimum left (t :: us) = (expression (precedence t.kind) >>= fun right =>
      extended minimum (.logical left (connective t.kind) right)) us := by
  rw [extended, List.length_cons, extend_join h]
  apply bind_congr
  · exact expressionWith_of_length_le (Nat.le_refl _)
  · intro right rest hr
    have hlen := takes_expression _ hr
    exact extend_of_length_le (by omega)

theorem loose_of_extended {rest : List Token} {e : Expression}
    (h : extended minimum left ts = .ok e rest) : Loose minimum rest := by
  induction hn : ts.length using Nat.strongRecOn generalizing ts left with
  | ind n ih =>
    by_cases hs : Loose minimum ts
    · rw [extended_stop hs] at h
      cases h
      exact hs
    cases ts with
    | nil => exact absurd (loose_nil minimum) hs
    | cons t us =>
      have hp : minimum < precedence t.kind := Nat.lt_of_not_le fun hle => hs (.cons hle)
      rw [extended_join hp] at h
      obtain ⟨right, mid, hr, h₁⟩ := bind_eq_ok h
      have hlen := takes_expression _ hr
      rw [List.length_cons] at hn
      exact ih mid.length (by omega) h₁ rfl

theorem loose_of_expression {rest : List Token} {e : Expression}
    (h : expression minimum ts = .ok e rest) : Loose minimum rest := by
  rw [expression_eq] at h
  obtain ⟨left, mid, _, hx⟩ := bind_eq_ok h
  exact loose_of_extended hx

section
variable {kind : TokenKind} {connective : Connective} {item other : Parser Expression}

theorem chainTail_stop (hk : kind.Exact) (h : Clear [kind] ts) (fuel : Nat) :
    chainTail kind connective item fuel left ts = .ok left ts := by
  cases fuel with
  | zero => rfl
  | succ fuel =>
    rw [chainTail, bind_of_ok (skip_clear hk h)]
    rfl

theorem chainTail_join (hk : kind.Exact) {t : Token} (ht : t.kind = kind) (fuel : Nat)
    (us : List Token) : chainTail kind connective item (fuel + 1) left (t :: us) =
      (item >>= fun right => chainTail kind connective item fuel
        (.logical left connective right)) us := by
  rw [chainTail, bind_of_ok (skip_cons hk ht us)]
  rfl

theorem chainTail_congr (hk : kind.Exact) (ho : Takes 0 other) {fuel more : Nat}
    (hf : ts.length ≤ fuel) (hm : ts.length ≤ more)
    (h : ∀ us : List Token, us.length ≤ ts.length → item us = other us) :
    chainTail kind connective item fuel left ts = chainTail kind connective other more left ts := by
  induction fuel generalizing more left ts with
  | zero =>
    obtain rfl := List.eq_nil_of_length_eq_zero (Nat.le_zero.1 hf)
    have hc : Clear [kind] [] := fun _ ht => nomatch ht
    rw [chainTail_stop hk hc, chainTail_stop hk hc]
  | succ fuel ih =>
    rcases clear_or_cons kind ts with hc | ⟨t, us, rfl, ht⟩
    · rw [chainTail_stop hk hc, chainTail_stop hk hc]
    · obtain ⟨more, rfl⟩ := Nat.exists_eq_add_of_le' (Nat.le_trans (Nat.succ_pos us.length) hm)
      simp only [List.length_cons] at hf hm h
      rw [chainTail_join hk ht, chainTail_join hk ht]
      apply bind_congr (h us (Nat.le_succ _))
      intro right rest hr
      have hlen := ho hr
      apply ih (by omega) (by omega)
      intro vs hv
      exact h vs (by omega)

def chained (kind : TokenKind) (connective : Connective) (item : Parser Expression)
    (left : Expression) : Parser Expression :=
  fun ts => chainTail kind connective item ts.length left ts

theorem chain_eq : chain kind connective item = item >>= chained kind connective item := rfl

theorem chained_stop (hk : kind.Exact) (h : Clear [kind] ts) :
    chained kind connective item left ts = .ok left ts :=
  chainTail_stop hk h ts.length

theorem chained_join (hk : kind.Exact) (hi : Takes 0 item) {t : Token} (ht : t.kind = kind)
    (us : List Token) : chained kind connective item left (t :: us) =
      (item >>= fun right => chained kind connective item (.logical left connective right)) us := by
  rw [chained, List.length_cons, chainTail_join hk ht]
  apply bind_congr rfl
  intro right rest hr
  have hlen := hi hr
  exact chainTail_congr hk hi (by omega) (Nat.le_refl _) fun _ _ => rfl

theorem chain_congr (hk : kind.Exact) (ho : Takes 0 other)
    (h : ∀ us : List Token, us.length ≤ ts.length → item us = other us) :
    chain kind connective item ts = chain kind connective other ts := by
  rw [chain_eq, chain_eq]
  apply bind_congr (h ts (Nat.le_refl _))
  intro left rest hl
  have hlen := ho hl
  apply chainTail_congr hk ho (Nat.le_refl _) (Nat.le_refl _)
  intro us hu
  exact h us (by omega)

end

theorem loose_one_iff : Loose 1 ts ↔ Clear [.keyword .AND] ts := by
  constructor
  · intro h t ht hm
    have hp := h t ht
    rw [List.mem_singleton.1 hm] at hp
    exact absurd hp (by decide)
  · intro h t ht
    rcases precedence_cases t.kind with h0 | ⟨-, h1⟩ | ⟨hk, -⟩
    · omega
    · omega
    · exact absurd (List.mem_singleton.2 hk) (h t ht)

/-- No connective binds tighter than AND, so an operand is all there is. -/
theorem expression_tight (n : Nat) : expression (n + 2) = operand (expression 0) := by
  rw [expression_eq]
  funext ts
  have hs : (operand (expression 0) >>= extended (n + 2)) ts =
      (operand (expression 0) >>= pure) ts := by
    apply bind_congr rfl
    intro left rest _
    exact extended_stop fun t _ => Nat.le_add_left_of_le (precedence_le t.kind)
  rw [hs, bind_pure]

theorem extended_one (left : Expression) :
    extended 1 left = chained (.keyword .AND) .and (expression 2) left := by
  funext ts
  induction hn : ts.length using Nat.strongRecOn generalizing ts left with
  | ind n ih =>
    rcases clear_or_cons (.keyword .AND) ts with hc | ⟨t, us, rfl, ht⟩
    · rw [extended_stop (loose_one_iff.2 hc), chained_stop (.keyword .AND) hc]
    · have hp : precedence t.kind = 2 := by rw [ht]; rfl
      have hand : connective t.kind = .and := by rw [ht]; rfl
      rw [extended_join (by omega), chained_join (.keyword .AND) (takes_item 2) ht, hp, hand]
      apply bind_congr rfl
      intro right rest hr
      have hlen := takes_expression 2 hr
      rw [List.length_cons] at hn
      exact ih rest.length (by omega) _ rest rfl

theorem loose_zero_of_clear (hand : Clear [.keyword .AND] ts) (hor : Clear [.keyword .OR] ts) :
    Loose 0 ts := by
  intro t ht
  rcases precedence_cases t.kind with h0 | ⟨hk, -⟩ | ⟨hk, -⟩
  · omega
  · exact absurd (List.mem_singleton.2 hk) (hor t ht)
  · exact absurd (List.mem_singleton.2 hk) (hand t ht)

/-- At the loosest level a chain of ANDs comes first, and none is left when it ends, so that only
ORs follow. -/
theorem extended_zero (left : Expression) : extended 0 left =
    (chained (.keyword .AND) .and (expression 2) left >>=
      chained (.keyword .OR) .or (expression 1)) := by
  funext ts
  induction hn : ts.length using Nat.strongRecOn generalizing ts left with
  | ind n ih =>
    rcases clear_or_cons (.keyword .AND) ts with hc | ⟨t, us, rfl, ht⟩
    · rw [bind_of_ok (chained_stop (.keyword .AND) hc)]
      rcases clear_or_cons (.keyword .OR) ts with ho | ⟨t, us, rfl, ht⟩
      · rw [extended_stop (loose_zero_of_clear hc ho), chained_stop (.keyword .OR) ho]
      · have hp : precedence t.kind = 1 := by rw [ht]; rfl
        have hor : connective t.kind = .or := by rw [ht]; rfl
        rw [extended_join (by omega), chained_join (.keyword .OR) (takes_item 1) ht, hp, hor]
        apply bind_congr rfl
        intro right rest hr
        have hlen := takes_expression 1 hr
        rw [List.length_cons] at hn
        have hclear := loose_one_iff.1 (loose_of_expression hr)
        rw [ih rest.length (by omega) _ rest rfl, bind_of_ok (chained_stop (.keyword .AND) hclear)]
    · have hp : precedence t.kind = 2 := by rw [ht]; rfl
      have hand : connective t.kind = .and := by rw [ht]; rfl
      have hjoin : chained (.keyword .AND) .and (expression 2) left (t :: us) = _ :=
        chained_join (.keyword .AND) (takes_item 2) ht us
      rw [extended_join (by omega), hp, hand, bind_congr hjoin fun _ _ _ => rfl, bind_assoc]
      apply bind_congr rfl
      intro right rest hr
      have hlen := takes_expression 2 hr
      rw [List.length_cons] at hn
      exact ih rest.length (by omega) _ rest rfl

theorem layered_expression : Layered (expression 0) (expression 1) (expression 2) where
  disjunction_eq := by
    rw [chain_eq, expression_eq 0, funext extended_zero, ← bind_assoc, ← expression_tight 0,
      expression_eq 1, funext extended_one, ← expression_tight 0]
  conjunction_eq := by
    rw [chain_eq, expression_eq 1, funext extended_one, ← expression_tight 0]
  operand_eq := by
    rw [primary_eq_operand, expression_tight 0]

/-- An operand hands fewer tokens back to the first layer, so the layers leave nothing open. -/
theorem Layered.disjunction_unique {disjunction conjunction operand : Parser Expression}
    (h : Layered disjunction conjunction operand) : disjunction = expression 0 := by
  funext ts
  induction hn : ts.length using Nat.strongRecOn generalizing ts with
  | ind n ih =>
    have ho : ∀ us : List Token, us.length ≤ n → operand us = expression 2 us := by
      intro us hu
      rw [h.operand_eq, layered_expression.operand_eq, primary_eq_operand, primary_eq_operand]
      apply operand_congr
      intro vs hv
      exact ih vs.length (by omega) vs rfl
    have hc : ∀ us : List Token, us.length ≤ n → conjunction us = expression 1 us := by
      intro us hu
      rw [h.conjunction_eq, layered_expression.conjunction_eq]
      apply chain_congr (.keyword .AND) (takes_item 2)
      intro vs hv
      exact ho vs (Nat.le_trans hv hu)
    rw [h.disjunction_eq, layered_expression.disjunction_eq]
    apply chain_congr (.keyword .OR) (takes_item 1)
    intro vs hv
    exact hc vs (Nat.le_trans hv (Nat.le_of_eq hn))

/-- Descent through the layers and reading by precedence are the same, on any tokens: the same
conditions, the same errors and the same tokens left. -/
theorem layered_iff_expression (disjunction conjunction operand : Parser Expression) :
    Layered disjunction conjunction operand ↔ disjunction = expression 0 ∧
      conjunction = expression 1 ∧ ∀ n, operand = expression (n + 2) := by
  constructor
  · intro h
    have hd := h.disjunction_unique
    have ho : operand = expression 2 := by
      rw [h.operand_eq, hd, ← layered_expression.operand_eq]
    have hc : conjunction = expression 1 := by
      rw [h.conjunction_eq, ho, ← layered_expression.conjunction_eq]
    refine ⟨hd, hc, ?_⟩
    intro n
    rw [ho]
    exact (expression_tight 0).trans (expression_tight n).symm
  · rintro ⟨rfl, rfl, ho⟩
    rw [ho 0]
    exact layered_expression

end DocBase.Sql.Parser
