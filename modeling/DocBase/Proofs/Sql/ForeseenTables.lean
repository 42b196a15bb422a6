import DocBase.Proofs.Sql.ForeseenPhrases
import DocBase.Proofs.Sql.TableDefinitions

namespace DocBase.Sql.Parser

open Grammar

/-- One constraint and what goes on behind it, or nothing. -/
def columnConstraintStep (next : Parser Unit) : Parser Unit := do
  if ← skip (.keyword .NOT) then
    let _ ← expect (.keyword .NULL)
    next
  else if ← skip (.keyword .NULL) then next
  else if ← skip (.keyword .UNIQUE) then next
  else if ← skip (.keyword .PRIMARY) then
    let _ ← expect (.keyword .KEY)
    next
  else if ← skip (.keyword .DEFAULT) then
    let _ ← literal
    next
  else return ()

theorem columnConstraints_succ (fuel : Nat) :
    columnConstraints (fuel + 1) = columnConstraintStep (columnConstraints fuel) := rfl

section
variable {α : Type} {k : TokenKind} {p p' q q' : Parser α} {ts : List Token}

theorem skipElse_congr (hk : k.Exact) (hp : ∀ t us, ts = t :: us → p us = p' us)
    (hq : q ts = q' ts) :
    (do if ← skip k then p else q : Parser α) ts = (do if ← skip k then p' else q') ts := by
  rcases clear_or_cons k ts with hc | ⟨t, us, rfl, ht⟩
  · rw [bind_of_ok (skip_clear hk hc), bind_of_ok (skip_clear hk hc)]
    exact hq
  · rw [bind_of_ok (skip_cons hk ht us), bind_of_ok (skip_cons hk ht us)]
    exact hp t us rfl

end

theorem columnConstraintStep_congr {next other : Parser Unit} {ts : List Token}
    (h : ∀ us : List Token, us.length < ts.length → next us = other us) :
    columnConstraintStep next ts = columnConstraintStep other ts := by
  have hbehind (t : Token) (us : List Token) (hts : ts = t :: us) : next us = other us :=
    h us (hts ▸ Nat.lt_succ_self _)
  have htaken {α : Type} {p : Parser α} (hp : Takes 0 p) (t : Token) (us : List Token)
      (hts : ts = t :: us) : (p >>= fun _ => next) us = (p >>= fun _ => other) us := by
    apply bind_congr rfl
    intro _ rest hr
    exact h rest (hts ▸ Nat.lt_succ_of_le (hp hr))
  have hexpect (kind : TokenKind) := htaken ((takes_expect kind).weaken (Nat.zero_le 1))
  exact skipElse_congr (.keyword _) (hexpect _) <| skipElse_congr (.keyword _) hbehind <|
    skipElse_congr (.keyword _) hbehind <| skipElse_congr (.keyword _) (hexpect _) <|
    skipElse_congr (.keyword _) (htaken takes_literal) rfl

theorem columnConstraints_congr {fuel more : Nat} {ts : List Token} (hf : ts.length ≤ fuel)
    (hm : ts.length ≤ more) : columnConstraints fuel ts = columnConstraints more ts := by
  induction fuel generalizing more ts with
  | zero =>
    obtain rfl := List.eq_nil_of_length_eq_zero (Nat.le_zero.1 hf)
    cases more <;> rfl
  | succ fuel ih =>
    cases more with
    | zero =>
      obtain rfl := List.eq_nil_of_length_eq_zero (Nat.le_zero.1 hm)
      rfl
    | succ more =>
      rw [columnConstraints_succ, columnConstraints_succ]
      apply columnConstraintStep_congr
      intro us hu
      exact ih (by omega) (by omega)

def constraints : Parser Unit := fun ts => columnConstraints ts.length ts

theorem constraints_eq : constraints = columnConstraintStep constraints := by
  funext ts
  cases ts with
  | nil => rfl
  | cons t us =>
    change columnConstraints (us.length + 1) (t :: us) = _
    rw [columnConstraints_succ]
    apply columnConstraintStep_congr
    intro vs hv
    exact columnConstraints_congr (Nat.le_of_lt_succ hv) (Nat.le_refl _)

theorem constraints_sound : constraints.Sound fun ts _ => Constraints ts := by
  intro ts _ _ hl h
  obtain ⟨used, hts, hu⟩ := (reads_columnConstraints ts.length).sound hl h
  exact ⟨used, hts, hu.constraints⟩

theorem completable_constraints {α : Type} (a : α) :
    Completable (fun ts b => Constraints ts ∧ b = a) [] :=
  ⟨[], a, nofun, .none, rfl⟩

theorem foresees_constraints : Foresees constraints fun ts _ => Constraints ts where
  live := (completable_constraints ()).mono And.left
  foreseen ts := by
    have hlive := (completable_constraints ()).mono And.left
    induction hn : ts.length using Nat.strongRecOn generalizing ts with
    | ind n ih =>
      have hbehind (us : List Token) (hu : us.length < n) := ih us.length hu us rfl
      have hlen (t : Token) (us : List Token) (hts : ts = t :: us) : us.length < n := by
        rw [← hn, hts]
        exact Nat.lt_succ_self _
      have hnext (t : Token) (us : List Token) (hts : ts = t :: us) :=
        hbehind us (hlen t us hts)
      have hword (k : Keyword) (t : Token) (us : List Token) (hts : ts = t :: us) :=
        Foreseen.expect (.keyword k) hlive fun u vs (hus : us = u :: vs) =>
          hbehind vs (Nat.lt_trans (hus ▸ Nat.lt_succ_self _) (hlen t us hts))
      have hliteral (t : Token) (us : List Token) (hts : ts = t :: us) :=
        Foreseen.bind reads_literal.isSound (foresees_literal.foreseen us)
          (fun _ mid hmid => hbehind mid (Nat.lt_of_le_of_lt (takes_literal hmid) (hlen t us hts)))
          fun _ => hlive
      rw [constraints_eq]
      refine (Foreseen.skipElse (.keyword .NOT) (hword .NULL) <|
        .skipElse (.keyword .NULL) hnext <| .skipElse (.keyword .UNIQUE) hnext <|
        .skipElse (.keyword .PRIMARY) (hword .KEY) <| .skipElse (.keyword .DEFAULT) hliteral <|
        (Foresees.pure ()).foreseen ts).mono ?_
      intro _ _ h
      rcases h with ⟨ht, hn, h⟩ | ⟨ht, h⟩ | ⟨ht, h⟩ | ⟨ht, hk, h⟩ | ⟨ht, hl, h⟩ | ⟨rfl, _⟩
      · exact .more (.notNull (spelled_two ht hn)) h
      · exact .more (.null (spelled_one ht)) h
      · exact .more (.unique (spelled_one ht)) h
      · exact .more (.primaryKey (spelled_two ht hk)) h
      · exact .more (.default (spelled_one ht) hl) h
      · exact .none

theorem foresees_size (type : ColumnType) : Foresees (do
      if ← skip (.sign .leftParen) then
        let _ ← expect .integer
        if ← skip (.sign .comma) then
          let _ ← expect .integer
        let _ ← expect (.sign .rightParen)
      return type) (fun ts t => Size ts ∧ t = type) := by
  have hclose := Foresees.expect (.sign .rightParen) (Foresees.pure type)
  have hmore := Foresees.skipElse (.sign .comma) (.expect .integer hclose) hclose
  apply (Foresees.optional (.sign .leftParen) (.expect .integer hmore) type).mono
  intro _ _ h
  rcases h with ⟨hl, hi, ⟨hc, hj, ⟨hr, rfl, rfl⟩⟩ | ⟨hr, rfl, rfl⟩⟩ | ⟨rfl, rfl⟩
  · exact ⟨.two (spelled_cons hl (spelled_cons hi (spelled_cons hc (spelled_two hj hr)))), rfl⟩
  · exact ⟨.one (spelled_cons hl (spelled_two hi hr)), rfl⟩
  · exact ⟨.absent, rfl⟩

theorem completable_typed : Completable Typed [] := by
  apply completable_name.imp
  intro _ name hn
  have ht := Typed.mk hn .absent
  rw [List.append_nil] at ht
  exact ⟨.ofName name, ht⟩

theorem foresees_columnType : Foresees columnType Typed where
  live := completable_typed
  foreseen ts := by
    apply Foreseen.current _ completable_typed
    · intro t us _ ht
      cases hk : t.kind with
      | identifier name =>
        refine .behind (fun _ => rfl) (hk ▸ ⟨nofun, nofun⟩)
          ((foresees_size (.ofName name)).foreseen us) ?_
        intro _ _ h
        obtain ⟨hs, rfl⟩ := h
        exact .mk (.mk hk) hs
      | _ => exact .unexpected completable_typed _
    · intro t us hk
      rw [hk]
      apply unexpected_of_atEnd
      rintro u ⟨⟩
      exact hk

theorem foresees_columnDefinition :
    Foresees columnDefinition fun ts column => Item ts (some column) := by
  have hc (column : String × ColumnType) :
      Foresees (do columnConstraints (← get).length; return column)
        fun ts b => Constraints ts ∧ b = column := by
    refine ⟨completable_constraints column, fun ts => ?_⟩
    refine (Foreseen.bind constraints_sound (foresees_constraints.foreseen ts)
      (fun _ mid _ => (Foresees.pure column).foreseen mid) fun _ => .silent column).mono ?_
    intro _ _ h
    obtain ⟨hc, rfl, rfl⟩ := h
    rw [List.append_nil]
    exact ⟨hc, rfl⟩
  apply (foresees_identifier.bind reads_identifier fun name =>
    foresees_columnType.bind reads_columnType fun type => hc (name, type)).mono
  intro _ _ h
  obtain ⟨hn, ht, hc, rfl⟩ := h
  exact .column hn ht hc

theorem foresees_tableItem : Foresees tableItem Item := by
  have hn := (foresees_parenthesized reads_identifier (by simp) foresees_identifier).bind
    (reads_parenthesized reads_identifier (by simp) (by simp))
    fun _ => .pure (none : Option (String × ColumnType))
  apply (Foresees.skipElse (.keyword .PRIMARY) (.expect (.keyword .KEY) hn)
    (.skipElse (.keyword .UNIQUE) hn
      (foresees_columnDefinition.map reads_columnDefinition some))).mono
  intro _ _ h
  rcases h with ⟨hp, hk, hns, rfl, rfl⟩ | ⟨hu, hns, rfl, rfl⟩ | ⟨_, h, rfl⟩
  · rw [List.append_nil]
    exact .constraint (.primaryKey (spelled_two hp hk)) hns
  · rw [List.append_nil]
    exact .constraint (.unique (spelled_one hu)) hns
  · exact h

theorem listed_append {α : Type} {item : Phrase α} {ts us : List Token} {t : Token}
    {as bs : List α} (ha : Listed item ts as) (ht : t.kind = .sign .comma)
    (hb : Listed item us bs) : Listed item (ts ++ t :: us) (as ++ bs) := by
  induction ha with
  | one ha => exact .more ha (spelled_one ht) hb
  | more ha hc _ ih =>
    rw [List.append_assoc, List.append_assoc]
    exact .more ha hc ih

theorem completable_columned {used : List Token} (h : Completable (Listed Item) used) :
    Completable Columned used := by
  obtain ⟨more, items, hm, hi⟩ := h
  obtain ⟨comma, hk, hw⟩ := (TokenKind.Usual.sign .comma).written
  obtain ⟨column, c, hcolumn, hc⟩ := foresees_columnDefinition.live
  refine ⟨more ++ comma :: column, _, ?_, items ++ [some c], ?_, ?_, rfl⟩
  · exact List.forall_mem_append.2 ⟨hm, List.forall_mem_cons.2 ⟨hw, hcolumn⟩⟩
  · rw [← List.append_assoc]
    exact listed_append hi hk (.one hc)
  · rw [List.filterMap_append]
    exact List.append_ne_nil_of_right_ne_nil _ (List.cons_ne_nil c [])

theorem foresees_tableColumns : Foresees tableColumns Columned where
  live := completable_columned
    (foresees_commaList reads_tableItem foresees_tableItem).live
  foreseen ts := by
    cases (foresees_commaList reads_tableItem foresees_tableItem).foreseen ts with
    | @ok used rest items hts hl hs =>
      by_cases he : (items.filterMap id).isEmpty = true
      · have hp : tableColumns ts = .error
            (.invalidSyntax "CREATE TABLE needs at least one column") rest := by
          rw [hts, tableColumns, bind_of_ok (hs rfl), if_pos he]
          rfl
        exact .invalid hp (.invalidSyntax _)
      · refine .ok used (items.filterMap id) hts hl fun rest' hr => ?_
        rw [tableColumns, bind_of_ok (hs hr), if_neg he]
        rfl
    | refused used e hts hl hs he hc =>
      exact .refused used e hts hl (fun rest' hr => bind_of_error (hs hr)) he
        fun hlex => completable_columned (hc hlex)
    | invalid hs he => exact .invalid (bind_of_error hs) he

theorem foresees_create : Foresees create fun ts s => Sentence ts (.create s) := by
  have hc (table : String) (columns : List (String × ColumnType)) :=
    Foresees.expect (.sign .rightParen) (.pure (⟨table, columns⟩ : Create))
  have hi (table : String) := Foresees.expect (.sign .leftParen)
    (foresees_tableColumns.bind reads_tableColumns (hc table))
  apply (Foresees.expect (.keyword .CREATE) (.skipOrFail (.keyword .TABLE)
    (foresees_identifier.bind reads_identifier hi) (.invalidSyntax _))).mono
  intro _ _ h
  obtain ⟨hc, ht, hn, hl, ⟨_, hi, hne, rfl⟩, hr, rfl, rfl⟩ := h
  exact .create (spelled_two hc ht) hn (.mk (spelled_one hl) hi (spelled_one hr)) hne

theorem foresees_drop : Foresees drop fun ts s => Sentence ts (.drop s) := by
  apply (Foresees.expect (.keyword .DROP) (.skipOrFail (.keyword .TABLE)
    (foresees_identifier.map reads_identifier fun table => (⟨table⟩ : Drop))
    (.invalidSyntax _))).mono
  intro _ _ h
  obtain ⟨hd, ht, _, hn, rfl⟩ := h
  exact .drop (spelled_two hd ht) hn

end DocBase.Sql.Parser
