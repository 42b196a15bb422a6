import DocBase.Proofs.Sql.Phrases

namespace DocBase.Sql

namespace Grammar

/-- The greatest precedence that a condition of a level does not show to its left. -/
def Level.tightness : Level → Nat
  | disjunction => 0
  | conjunction => 1
  | primary => 2

theorem Condition.conjunction_of_primary {level : Level} {ts : List Token} {e : Expression}
    (h : Condition level ts e) (hl : 1 ≤ level.tightness) : Condition .conjunction ts e := by
  cases level with
  | disjunction => cases hl
  | conjunction => exact h
  | primary => exact .ofPrimary h

theorem Condition.loosen {level looser : Level} {ts : List Token} {e : Expression}
    (h : Condition level ts e) (hl : looser.tightness ≤ level.tightness) :
    Condition looser ts e := by
  cases looser with
  | disjunction =>
    cases level with
    | disjunction => exact h
    | _ => exact .ofConjunction (h.conjunction_of_primary (by decide))
  | conjunction => exact h.conjunction_of_primary hl
  | primary =>
    cases level with
    | primary => exact h
    | disjunction | conjunction => exact absurd hl (by decide)

theorem Name.length_pos {ts : List Token} {name : String} (h : Name ts name) : 0 < ts.length := by
  obtain ⟨_⟩ := h
  exact Nat.zero_lt_one

theorem Column.length_pos {ts : List Token} {column : ColumnRef} (h : Column ts column) :
    0 < ts.length := by
  cases h with
  | plain hn => exact hn.length_pos
  | qualified hn _ _ =>
    rw [List.length_append]
    exact Nat.add_pos_left hn.length_pos _

theorem Condition.length_pos {level : Level} {ts : List Token} {e : Expression}
    (h : Condition level ts e) : 0 < ts.length := by
  induction h with
  | comparison hc _ _ =>
    rw [List.length_append]
    exact Nat.add_pos_left hc.length_pos _
  | parenthesized hl _ _ _ =>
    obtain ⟨t, rfl, _⟩ := hl.one
    exact Nat.succ_pos _
  | ofPrimary _ ih | ofConjunction _ ih => exact ih
  | and _ _ _ ih _ | or _ _ _ ih _ =>
    rw [List.length_append]
    exact Nat.add_pos_left ih _

end Grammar

namespace Parser

open Grammar

def Compared : Phrase Expression :=
  Sequence Column fun column => Sequence Comparator fun operator ts e =>
    ∃ literal, Literal ts literal ∧ e = .comparison column operator literal

theorem Compared.condition {ts : List Token} {e : Expression} (h : Compared ts e) :
    Condition .primary ts e := by
  obtain ⟨hc, ho, literal, hl, rfl⟩ := h
  exact .comparison hc ho hl

theorem clear_of_comparator {ts rest : List Token} {operator : Operator}
    (h : Comparator ts operator) : Clear [.sign .dot] (ts ++ rest) := by
  cases h <;> exact Spelled.clear ‹_› (by simp)

theorem reads_comparison : Reads comparison Compared [] := by
  have hl (column : ColumnRef) (operator : Operator) := reads_literal.map
    fun literal => Expression.comparison column operator literal
  have ho (column : ColumnRef) := (reads_operator column).bind (hl column)
    fun ⟨_, hl, _⟩ _ => clear_of_literal hl
  apply reads_columnRef.bind ho
  intro _ _ _ _ h _
  obtain ⟨ho, _⟩ := h
  rw [List.append_assoc]
  exact clear_of_comparator ho

theorem operand_of_name {inner : Parser Expression} {t : Token} {name : String}
    (hk : t.kind = .identifier name) (ts : List Token) :
    operand inner (t :: ts) = comparison (t :: ts) := by
  rw [operand, currentKind_bind]
  dsimp only [List.head?_cons, Option.map_some]
  rw [hk]

theorem operand_of_leftParen {inner : Parser Expression} {t : Token}
    (hk : t.kind = .sign .leftParen) (ts : List Token) : operand inner (t :: ts) =
      (do let e ← inner; let _ ← expect (.sign .rightParen); return e : Parser Expression) ts := by
  rw [operand, currentKind_bind]
  dsimp only [List.head?_cons, Option.map_some]
  rw [hk]
  rfl

theorem operand_ne_ok {inner : Parser Expression} {t : Token} {ts rest : List Token}
    {e : Expression} (hn : ∀ name, t.kind ≠ .identifier name) (hp : t.kind ≠ .sign .leftParen) :
    operand inner (t :: ts) ≠ .ok e rest := by
  rw [operand, currentKind_bind]
  dsimp only [List.head?_cons, Option.map_some]
  cases hk : t.kind with
  | identifier name => exact absurd hk (hn name)
  | sign s =>
    cases s with
    | leftParen => exact absurd hk hp
    | _ => exact nofun
  | _ => exact nofun

theorem operand_sound {inner : Parser Expression} {fuel : Nat}
    (hi : ∀ {ts rest e}, (∀ t ∈ ts, t.Lexed) → ts.length ≤ fuel → inner ts = .ok e rest →
      ∃ used, ts = used ++ rest ∧ Condition .disjunction used e)
    {ts rest : List Token} {e : Expression} (hl : ∀ t ∈ ts, t.Lexed) (hf : ts.length ≤ fuel + 1)
    (h : operand inner ts = .ok e rest) :
    ∃ used, ts = used ++ rest ∧ Condition .primary used e := by
  cases ts with
  | nil => cases h
  | cons t us =>
    by_cases hn : ∃ name, t.kind = .identifier name
    · obtain ⟨name, hn⟩ := hn
      rw [operand_of_name hn] at h
      obtain ⟨used, he, hu⟩ := reads_comparison.sound hl h
      exact ⟨used, he, hu.condition⟩
    by_cases hp : t.kind = .sign .leftParen
    · rw [operand_of_leftParen hp] at h
      obtain ⟨a, mid, ha, h₁⟩ := bind_eq_ok h
      obtain ⟨vs, rfl, hv⟩ := hi (fun t ht => hl t (.tail _ ht)) (Nat.le_of_succ_le_succ hf) ha
      obtain ⟨r, mid₂, hr, h₂⟩ := bind_eq_ok h₁
      obtain ⟨rfl, hk⟩ := expect_eq_ok (.sign .rightParen) hr
      obtain ⟨rfl, rfl⟩ := pure_eq_ok h₂
      refine ⟨[t] ++ (vs ++ [r]), by simp, ?_⟩
      exact .parenthesized (spelled_one hp) hv (spelled_one hk)
    · exact absurd h (operand_ne_ok (fun name hk => hn ⟨name, hk⟩) hp)

def connective (kind : TokenKind) : Connective := if kind = .keyword .AND then .and else .or

theorem precedence_cases (kind : TokenKind) : precedence kind = 0 ∨
    (kind = .keyword .OR ∧ precedence kind = 1) ∨ kind = .keyword .AND ∧ precedence kind = 2 := by
  cases kind with
  | keyword k => cases k <;> simp [precedence]
  | _ => exact .inl rfl

theorem Joined.condition {looser tighter : Level} {us vs : List Token} {left right : Expression}
    {t : Token} (hp : 0 < precedence t.kind) (hl : Condition looser us left)
    (hlp : precedence t.kind ≤ looser.tightness + 1) (hr : Condition tighter vs right)
    (hrp : precedence t.kind ≤ tighter.tightness) :
    ∃ level, level.tightness + 1 = precedence t.kind ∧
      Condition level (us ++ (t :: vs)) (.logical left (connective t.kind) right) := by
  rcases precedence_cases t.kind with h0 | ⟨hk, h1⟩ | ⟨hk, h2⟩
  · rw [h0] at hp
    cases hp
  · rw [h1] at hlp hrp ⊢
    have hc : connective t.kind = .or := by rw [hk]; rfl
    rw [hc]
    exact ⟨.disjunction, rfl, .or (hl.loosen (Nat.zero_le _)) (spelled_one hk) (hr.loosen hrp)⟩
  · rw [h2] at hlp hrp ⊢
    have hc : connective t.kind = .and := by rw [hk]; rfl
    rw [hc]
    exact ⟨.conjunction, rfl, .and (hl.loosen (Nat.le_of_succ_le_succ hlp)) (spelled_one hk)
      (hr.loosen hrp)⟩

/-- No connective stands in front that binds tighter than `minimum`. -/
def Loose (minimum : Nat) (ts : List Token) : Prop := ∀ t ∈ ts.head?, precedence t.kind ≤ minimum

theorem Loose.of_clear {ts : List Token} (h : Clear [.keyword .AND, .keyword .OR] ts)
    (minimum : Nat) : Loose minimum ts := by
  intro t ht
  have hk := h t ht
  rcases precedence_cases t.kind with h0 | ⟨hor, _⟩ | ⟨hand, _⟩
  · rw [h0]
    exact Nat.zero_le _
  · exact absurd (by simp [hor]) hk
  · exact absurd (by simp [hand]) hk

theorem Loose.cons {minimum : Nat} {t : Token} {ts : List Token}
    (h : precedence t.kind ≤ minimum) : Loose minimum (t :: ts) := by
  intro u hu
  cases hu
  exact h

theorem precedence_le (kind : TokenKind) : precedence kind ≤ 2 := by
  rcases precedence_cases kind with h | ⟨_, h⟩ | ⟨_, h⟩ <;> omega

theorem extend_stop {fuel minimum : Nat} {left : Expression} {ts : List Token}
    (h : Loose minimum ts) : extend fuel minimum left ts = .ok left ts := by
  cases fuel with
  | zero => rfl
  | succ fuel =>
    rw [extend, currentKind_bind]
    cases ts with
    | nil => rfl
    | cons t us =>
      dsimp only [List.head?_cons, Option.map_some]
      rw [if_neg (Nat.not_lt.2 (h t rfl))]
      rfl

theorem extend_join {fuel minimum : Nat} {left : Expression} {t : Token} {ts : List Token}
    (h : minimum < precedence t.kind) : extend (fuel + 1) minimum left (t :: ts) =
      (expressionWith fuel (precedence t.kind) >>= fun right =>
        extend fuel minimum (.logical left (connective t.kind) right)) ts := by
  rw [extend, currentKind_bind]
  dsimp only [List.head?_cons, Option.map_some]
  rw [if_pos h]
  rfl

/-- What `expressionWith` takes is a condition of a level as tight as asked for. -/
def ExpressionSound (fuel : Nat) : Prop :=
  ∀ {minimum : Nat} {ts rest : List Token} {e : Expression}, minimum ≤ 2 →
    (∀ t ∈ ts, t.Lexed) → ts.length ≤ fuel → expressionWith fuel minimum ts = .ok e rest →
    ∃ used level, ts = used ++ rest ∧ minimum ≤ level.tightness ∧ Condition level used e ∧
      Loose minimum rest

/-- What `extend` takes makes up a condition with what stands before it. -/
def ExtendSound (fuel : Nat) : Prop :=
  ∀ {minimum : Nat} {before ts rest : List Token} {left e : Expression} {level : Level},
    minimum ≤ level.tightness → Condition level before left → Loose (level.tightness + 1) ts →
    (∀ t ∈ ts, t.Lexed) → ts.length ≤ fuel → extend fuel minimum left ts = .ok e rest →
    ∃ used level, ts = used ++ rest ∧ minimum ≤ level.tightness ∧
      Condition level (before ++ used) e ∧ Loose minimum rest

theorem ExpressionSound.succ {fuel : Nat} (he : ExpressionSound fuel) (hx : ExtendSound fuel) :
    ExpressionSound (fuel + 1) := by
  intro minimum ts rest e hm hl hf h
  rw [expressionWith] at h
  obtain ⟨left, mid, ho, h₁⟩ := bind_eq_ok h
  -- An operand between parentheses is any condition, so its level is loosened all the way.
  obtain ⟨us, rfl, hu⟩ := operand_sound (fun hl hf h => by
    obtain ⟨used, level, rfl, _, hc, _⟩ := he (Nat.zero_le _) hl hf h
    exact ⟨used, rfl, hc.loosen (Nat.zero_le _)⟩) hl hf ho
  have hpos := hu.length_pos
  rw [List.length_append] at hf
  obtain ⟨vs, level, rfl, hv⟩ := hx hm hu (fun t _ => Nat.le_succ_of_le (precedence_le t.kind))
    (fun t ht => hl t (List.mem_append_right us ht)) (by omega) h₁
  exact ⟨us ++ vs, level, (List.append_assoc _ _ _).symm, hv⟩

theorem ExtendSound.succ {fuel : Nat} (he : ExpressionSound fuel) (hx : ExtendSound fuel) :
    ExtendSound (fuel + 1) := by
  intro minimum before ts rest left e level hm hb hloose hl hf h
  by_cases hs : Loose minimum ts
  · rw [extend_stop hs] at h
    cases h
    exact ⟨[], level, rfl, hm, by rwa [List.append_nil], hs⟩
  cases ts with
  | nil => exact absurd (fun _ ht => nomatch ht) hs
  | cons t us =>
    have hp : minimum < precedence t.kind := Nat.lt_of_not_le fun hle => hs (.cons hle)
    rw [extend_join hp] at h
    obtain ⟨right, mid, hr, h₁⟩ := bind_eq_ok h
    obtain ⟨vs, tighter, rfl, ht, hright, hmid⟩ := he (precedence_le t.kind)
      (fun t ht => hl t (.tail _ ht)) (Nat.le_of_succ_le_succ hf) hr
    obtain ⟨joined, hj, hc⟩ := Joined.condition (Nat.zero_lt_of_lt hp) hb (hloose t rfl) hright ht
    have hlen : mid.length ≤ fuel := by
      simp only [List.length_cons, List.length_append] at hf
      omega
    -- Both sides together make up what stands before the tokens left over.
    obtain ⟨ws, last, rfl, hlast, hw, hrest⟩ := hx (by omega) hc (by rwa [hj])
      (fun t ht => hl t (.tail _ (List.mem_append_right vs ht))) hlen h₁
    refine ⟨t :: (vs ++ ws), last, by simp, hlast, ?_, hrest⟩
    simpa using hw

theorem expression_and_extend_sound (fuel : Nat) : ExpressionSound fuel ∧ ExtendSound fuel := by
  induction fuel with
  | zero =>
    constructor
    · intro minimum ts rest e _ _ _ h
      cases h
    · intro minimum before ts rest left e level hm hb _ _ hf h
      obtain rfl := List.eq_nil_of_length_eq_zero (Nat.le_zero.1 hf)
      cases h
      exact ⟨[], level, rfl, hm, by rwa [List.append_nil], fun _ ht => nomatch ht⟩
  | succ fuel ih => exact ⟨ExpressionSound.succ ih.1 ih.2, ExtendSound.succ ih.1 ih.2⟩

theorem Column.starts {ts : List Token} {column : ColumnRef} (h : Column ts column) :
    ∃ t us name, ts = t :: us ∧ t.kind = .identifier name := by
  cases h with
  | plain hn =>
    obtain ⟨hk⟩ := hn
    exact ⟨_, [], _, rfl, hk⟩
  | qualified hn _ _ =>
    obtain ⟨hk⟩ := hn
    exact ⟨_, _, _, rfl, hk⟩

theorem Loose.weaken {minimum more : Nat} {ts : List Token} (h : Loose minimum ts)
    (hm : minimum ≤ more) : Loose more ts := by
  intro t ht
  exact Nat.le_trans (h t ht) hm

/-- Having read these tokens as a condition of this tightness, `expressionWith` goes on behind them
with enough fuel for the rest. -/
def ReadThrough (tightness : Nat) (used : List Token) (e : Expression) : Prop :=
  ∀ ⦃minimum fuel : Nat⦄ ⦃rest : List Token⦄, minimum ≤ tightness → Loose (tightness + 1) rest →
    (used ++ rest).length ≤ fuel → ∃ left, rest.length ≤ left ∧
      expressionWith fuel minimum (used ++ rest) = extend left minimum e rest

theorem ReadThrough.of_operand {tightness : Nat} {used : List Token} {e : Expression}
    (hpos : 0 < used.length)
    (h : ∀ {fuel rest}, (used ++ rest).length ≤ fuel + 1 →
      operand (expressionWith fuel 0) (used ++ rest) = .ok e rest) :
    ReadThrough tightness used e := by
  intro minimum fuel rest _ _ hf
  have hlen := hf
  rw [List.length_append] at hlen
  obtain ⟨fuel, rfl⟩ : ∃ n, fuel = n + 1 := Nat.exists_eq_succ_of_ne_zero (by omega)
  refine ⟨fuel, by omega, ?_⟩
  rw [expressionWith, bind_of_ok (h hf)]

theorem ReadThrough.looser {tightness : Nat} {used : List Token} {e : Expression}
    (h : ReadThrough (tightness + 1) used e) : ReadThrough tightness used e := by
  intro _ _ _ hm hr hf
  exact h (Nat.le_succ_of_le hm) (hr.weaken (Nat.le_succ _)) hf

theorem ReadThrough.join {tightness : Nat} {us vs : List Token} {left right : Expression}
    {t : Token} (hl : ReadThrough tightness us left) (hr : ReadThrough (tightness + 1) vs right)
    (ht : precedence t.kind = tightness + 1) :
    ReadThrough tightness (us ++ ([t] ++ vs)) (.logical left (connective t.kind) right) := by
  intro minimum fuel rest hm hrest hf
  have hassoc : us ++ ([t] ++ vs) ++ rest = us ++ (t :: (vs ++ rest)) := by simp
  rw [hassoc] at hf ⊢
  obtain ⟨afterLeft, hlen, hleft⟩ := hl hm (.cons (Nat.le_of_eq ht)) hf
  obtain ⟨fuel, rfl⟩ : ∃ n, afterLeft = n + 1 := Nat.exists_eq_succ_of_ne_zero (by
    intro he
    subst he
    cases hlen)
  have hlen := Nat.le_of_succ_le_succ hlen
  obtain ⟨afterRight, _, hright⟩ := hr (Nat.le_refl _) (hrest.weaken (Nat.le_succ _)) hlen
  rw [extend_stop hrest] at hright
  refine ⟨fuel, ?_, ?_⟩
  · rw [List.length_append] at hlen
    omega
  · rw [hleft, extend_join (by omega), ht, bind_of_ok hright]

theorem ReadThrough.parenthesized {used l r : List Token} {e : Expression} {tightness : Nat}
    (h : ReadThrough 0 used e) (hl : Spelled [.sign .leftParen] l)
    (hr : Spelled [.sign .rightParen] r) : ReadThrough tightness (l ++ (used ++ r)) e := by
  obtain ⟨t, rfl, ht⟩ := hl.one
  obtain ⟨u, rfl, hu⟩ := hr.one
  refine ReadThrough.of_operand (Nat.succ_pos _) ?_
  intro fuel rest hf
  have hassoc : [t] ++ (used ++ [u]) ++ rest = t :: (used ++ (u :: rest)) := by simp
  rw [hassoc] at hf ⊢
  have hp : precedence u.kind = 0 := by
    rw [hu]
    rfl
  have hloose (n : Nat) : Loose n (u :: rest) := .cons (hp ▸ Nat.zero_le n)
  obtain ⟨left, _, hx⟩ := h (Nat.le_refl 0) (hloose 1) (Nat.le_of_succ_le_succ hf)
  rw [extend_stop (hloose 0)] at hx
  rw [operand_of_leftParen ht, bind_of_ok hx, bind_of_ok (expect_cons (.sign .rightParen) hu rest)]
  rfl

theorem readThrough_of_comparison {cs os ls : List Token} {column : ColumnRef}
    {operator : Operator} {literal : Value} {tightness : Nat} (hc : Column cs column)
    (ho : Comparator os operator) (hl : Literal ls literal) :
    ReadThrough tightness (cs ++ (os ++ ls)) (.comparison column operator literal) := by
  have hcompared : Compared (cs ++ (os ++ ls)) (.comparison column operator literal) :=
    .mk hc (.mk ho ⟨literal, hl, rfl⟩)
  obtain ⟨t, us, name, rfl, hk⟩ := Column.starts hc
  refine ReadThrough.of_operand (Nat.succ_pos _) ?_
  intro fuel rest hf
  have h := reads_comparison.complete hcompared (.none rest)
  exact (operand_of_name hk _).trans h

theorem expressionWith_complete {level : Level} {used : List Token} {e : Expression}
    (h : Condition level used e) : ReadThrough level.tightness used e := by
  induction h with
  | comparison hc ho hl => exact readThrough_of_comparison hc ho hl
  | parenthesized hl _ hr ih => exact ih.parenthesized hl hr
  | ofPrimary _ ih | ofConjunction _ ih => exact ih.looser
  | and _ hc _ ihl ihr | or _ hc _ ihl ihr =>
    obtain ⟨t, rfl, ht⟩ := hc.one
    have h := ihl.join ihr (by rw [ht]; rfl)
    rw [ht] at h
    exact h

theorem reads_expression :
    Reads (expression 0) (Condition .disjunction) [.keyword .AND, .keyword .OR] where
  sound {ts} _ _ hl h := by
    obtain ⟨used, level, he, _, hc, _⟩ :=
      (expression_and_extend_sound ts.length).1 (Nat.zero_le _) hl (Nat.le_refl _) h
    exact ⟨used, he, hc.loosen (Nat.zero_le _)⟩
  complete {used rest e} hu hr := by
    obtain ⟨left, _, h⟩ := expressionWith_complete hu (Nat.le_refl 0) (.of_clear hr 1)
      (Nat.le_refl _)
    rw [extend_stop (.of_clear hr 0)] at h
    exact h

theorem reads_condition :
    Reads condition Where [.keyword .WHERE, .keyword .AND, .keyword .OR] := by
  apply (Reads.optional (.keyword .WHERE) (reads_expression.map some) none).mono
  · intro _ _ h
    rcases h with ⟨hw, _, he, rfl⟩ | ⟨rfl, rfl⟩
    · exact .present (spelled_one hw) he
    · exact .absent
  · intro _ _ h
    rcases h with _ | ⟨hw, he⟩
    · exact .inr ⟨rfl, rfl⟩
    · exact .inl (hw.marked ⟨_, he, rfl⟩)

end Parser

end DocBase.Sql
