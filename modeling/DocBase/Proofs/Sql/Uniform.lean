import DocBase.Sql.Parser.Statement
import Mathlib.Data.List.Forall2

namespace DocBase.Sql

/-- Tokens that are the same but for their places and the case of the letters of keywords. -/
structure Token.Akin (t u : Token) : Prop where
  kind : u.kind = t.kind
  literal : u.literal = t.literal ∨
    (∃ k, t.kind = .keyword k) ∧ Text.equalsIgnoringCase t.literal u.literal

abbrev AllAkin : List Token → List Token → Prop := List.Forall₂ Token.Akin

theorem Token.Akin.literal_eq {t u : Token} (h : t.Akin u) (hk : ∀ k, t.kind ≠ .keyword k) :
    u.literal = t.literal := by
  rcases h.literal with he | ⟨⟨k, hkind⟩, -⟩
  · exact he
  · exact absurd hkind (hk k)

/-- Errors that are the same but for the token that they tell of, which is another one akin to it. -/
inductive ParseError.Akin : ParseError → ParseError → Prop
  | same (e : ParseError) : Akin e e
  | unexpectedToken {t u : Token} : t.Akin u → Akin (.unexpectedToken t) (.unexpectedToken u)
  | expectedToken (expected : TokenKind) {t u : Token} : t.Akin u →
      Akin (.expectedToken expected t) (.expectedToken expected u)
  | negated {t u : Token} : t.Akin u →
      Akin (.invalidLiteral ("-" ++ t.literal)) (.invalidLiteral ("-" ++ u.literal))
  | comparison (column : String) {t u : Token} : t.Akin u →
      Akin
        (.invalidSyntax ("Expected a comparison operator after column '" ++ column ++
          "', found " ++ t.show))
        (.invalidSyntax ("Expected a comparison operator after column '" ++ column ++
          "', found " ++ u.show))

namespace Parser

variable {α β γ δ : Type}

/-- Answers with related results and akin tokens left, or with akin errors. -/
inductive Answers (R : α → β → Prop) : EStateM.Result ParseError (List Token) α →
    EStateM.Result ParseError (List Token) β → Prop
  | ok {a : α} {b : β} {ts us : List Token} : R a b → AllAkin ts us →
      Answers R (.ok a ts) (.ok b us)
  | error {e e' : ParseError} {ts us : List Token} : e.Akin e' →
      Answers R (.error e ts) (.error e' us)

/-- Parsers that answer so on akin tokens. -/
def Mirrors (R : α → β → Prop) (p : Parser α) (q : Parser β) : Prop :=
  ∀ ⦃ts us : List Token⦄, AllAkin ts us → Answers R (p ts) (q us)

/-- A parser to which akin tokens are the same. -/
abbrev Uniform (p : Parser α) : Prop := Mirrors Eq p p

section
variable {R : α → β → Prop} {S : γ → δ → Prop} {p : Parser α} {q : Parser β} {f : α → Parser γ}
  {g : β → Parser δ}

theorem Mirrors.bind (hp : Mirrors R p q) (hf : ∀ a b, R a b → Mirrors S (f a) (g b)) :
    Mirrors S (p >>= f) (q >>= g) := by
  intro ts us h
  change Answers S (EStateM.bind p f ts) (EStateM.bind q g us)
  have ha := hp h
  rw [EStateM.bind, EStateM.bind]
  generalize p ts = r at ha ⊢
  generalize q us = r' at ha ⊢
  cases ha with
  | ok hr ht => exact hf _ _ hr ht
  | error he => exact .error he

theorem Uniform.bind {f : α → Parser γ} (hp : Uniform p) (hf : ∀ a, Uniform (f a)) :
    Uniform (p >>= f) := by
  apply Mirrors.bind hp
  rintro a _ rfl
  exact hf a

theorem uniform_pure (a : α) : Uniform (pure a : Parser α) := fun _ _ h => .ok rfl h

theorem mirrors_throw {e e' : ParseError} (h : e.Akin e') :
    Mirrors Eq (throw e : Parser α) (throw e') := fun _ _ _ => .error h

theorem uniform_throw (e : ParseError) : Uniform (throw e : Parser α) := mirrors_throw (.same e)

theorem mirrors_get : Mirrors AllAkin get get := fun _ _ h => .ok h h

theorem mirrors_current : Mirrors (Option.Rel Token.Akin) current current := by
  intro ts us h
  cases h with
  | nil => exact .ok .none .nil
  | cons ht hts => exact .ok (.some ht) (.cons ht hts)

theorem uniform_currentKind : Uniform currentKind := by
  intro ts us h
  cases h with
  | nil => exact .ok rfl .nil
  | cons ht hts => exact .ok (congrArg some ht.kind.symm) (.cons ht hts)

theorem uniform_advance : Uniform advance := by
  intro ts us h
  cases h with
  | nil => exact .ok rfl .nil
  | cons _ hts => exact .ok rfl hts

theorem uniform_sees (kind : TokenKind) : Uniform (sees kind) := by
  intro ts us h
  refine .ok ?_ h
  cases h with
  | nil => rfl
  | cons ht _ => simp only [List.head?_cons, Option.any_some, ht.kind]

theorem uniform_skip (kind : TokenKind) : Uniform (skip kind) := by
  apply (uniform_sees kind).bind
  intro seen
  split
  · exact uniform_advance.bind fun _ => uniform_pure _
  · exact uniform_pure _

theorem mirrors_unexpected : Mirrors ParseError.Akin unexpected unexpected := by
  intro ts us h
  cases h with
  | nil => exact .ok (.same _) .nil
  | cons ht hts =>
    refine .ok ?_ (.cons ht hts)
    rw [ht.kind]
    split
    · exact .same _
    · exact .unexpectedToken ht

theorem uniform_unexpected : Uniform (do throw (← unexpected) : Parser α) :=
  mirrors_unexpected.bind fun _ _ he => mirrors_throw he

theorem uniform_current_bind {f : Option Token → Parser α} (hn : Uniform (f none))
    (hs : ∀ t u, t.Akin u → Mirrors Eq (f (some t)) (f (some u))) : Uniform (current >>= f) := by
  apply mirrors_current.bind
  intro t u h
  cases h with
  | none => exact hn
  | some h => exact hs _ _ h

theorem mirrors_expect (kind : TokenKind) : Mirrors Token.Akin (expect kind) (expect kind) := by
  apply mirrors_current.bind
  intro t u h
  cases h with
  | none => exact fun _ _ _ => .error (.same _)
  | some h =>
    dsimp only
    rw [h.kind]
    split
    · exact Mirrors.bind uniform_advance fun _ _ _ _ _ hts => .ok h hts
    · split
      · exact fun _ _ _ => .error (.same _)
      · exact fun _ _ _ => .error (.expectedToken kind h)

theorem uniform_expect_bind (kind : TokenKind) {p : Parser α} (hp : Uniform p) :
    Uniform (do let _ ← expect kind; p) :=
  (mirrors_expect kind).bind fun _ _ _ => hp

theorem uniform_identifier : Uniform identifier := by
  apply uniform_current_bind (uniform_throw _)
  intro t u h
  dsimp only
  rw [h.kind]
  cases t.kind with
  | identifier name => exact uniform_advance.bind fun _ => uniform_pure _
  | endOfText => exact uniform_throw _
  | _ => exact mirrors_throw (.expectedToken _ h)

theorem uniform_commaTail {item : Parser α} (hi : Uniform item) (fuel : Nat) :
    Uniform (commaTail item fuel) := by
  induction fuel with
  | zero => exact uniform_pure _
  | succ fuel ih =>
    apply (uniform_skip _).bind
    intro comma
    split
    · apply hi.bind
      intro first
      exact ih.bind fun _ => uniform_pure _
    · exact uniform_pure _

/-- Akin tokens are as many, so they give the same fuel. -/
theorem uniform_get_bind {f : Nat → Parser α} (hf : ∀ n, Uniform (f n)) :
    Uniform (do f (← get).length) := by
  apply mirrors_get.bind
  intro ts us h
  rw [h.length_eq]
  exact hf _

theorem uniform_commaList {item : Parser α} (hi : Uniform item) : Uniform (commaList item) := by
  apply hi.bind
  intro first
  apply uniform_get_bind (f := fun fuel => do return first :: (← commaTail item fuel))
  intro fuel
  exact (uniform_commaTail hi fuel).bind fun _ => uniform_pure _

theorem uniform_columnRef : Uniform columnRef := by
  apply uniform_identifier.bind
  intro first
  apply (uniform_skip _).bind
  intro dot
  split
  · exact uniform_identifier.bind fun _ => uniform_pure _
  · exact uniform_pure _

theorem uniform_number (kind : TokenKind) (literal : String) : Uniform (number kind literal) := by
  unfold number
  cases Numeral.ofText? literal.toList with
  | none => exact uniform_throw _
  | some n =>
    dsimp only
    split <;> exact uniform_pure _

theorem mirrors_number {t u : Token} (h : t.Akin u) (hk : ∀ k, t.kind ≠ .keyword k)
    (sign : String) : Mirrors Eq
      (do let value ← number t.kind (sign ++ t.literal); advance; return value)
      (do let value ← number t.kind (sign ++ u.literal); advance; return value) := by
  rw [h.literal_eq hk]
  apply (uniform_number _ _).bind
  intro value
  exact uniform_advance.bind fun _ => uniform_pure _

theorem uniform_negated : Uniform negated := by
  apply uniform_current_bind (uniform_throw _)
  intro t u h
  dsimp only
  have hn := mirrors_number h
  rw [h.kind]
  cases hk : t.kind with
  | integer | float =>
    rw [hk] at hn
    exact hn nofun "-"
  | endOfText => exact uniform_throw _
  | _ => exact mirrors_throw (.negated h)

theorem uniform_literal : Uniform literal := by
  apply uniform_current_bind (uniform_throw _)
  intro t u h
  dsimp only
  have hn := mirrors_number h
  have hv (value : Value) : Uniform (do advance; return value) :=
    uniform_advance.bind fun _ => uniform_pure value
  rw [h.kind]
  cases hk : t.kind with
  | integer | float =>
    rw [hk] at hn
    exact hn nofun ""
  | string text => exact hv _
  | keyword k =>
    cases k with
    | NULL | TRUE | FALSE => exact hv _
    | _ => exact uniform_unexpected
  | sign s =>
    cases s with
    | minus => exact uniform_advance.bind fun _ => uniform_negated
    | _ => exact uniform_unexpected
  | _ => exact uniform_unexpected

theorem uniform_operator (column : ColumnRef) : Uniform (operator column) := by
  apply (uniform_skip _).bind
  intro isKeyword
  split
  · apply (uniform_skip _).bind
    intro negated
    split <;> exact uniform_pure _
  · apply uniform_current_bind (uniform_throw _)
    intro t u h
    dsimp only
    rw [h.kind]
    cases comparisonSign t.kind with
    | ok operator => exact uniform_advance.bind fun _ => uniform_pure _
    | error e =>
      dsimp only
      split
      · exact uniform_throw _
      · exact mirrors_throw (.comparison _ h)

theorem uniform_comparison : Uniform comparison := by
  apply uniform_columnRef.bind
  intro column
  apply (uniform_operator column).bind
  intro operator
  exact uniform_literal.bind fun _ => uniform_pure _

theorem uniform_operand {inner : Parser Expression} (h : Uniform inner) :
    Uniform (operand inner) := by
  apply uniform_currentKind.bind
  intro kind
  cases kind with
  | none => exact uniform_unexpected
  | some kind =>
    cases kind with
    | identifier name => exact uniform_comparison
    | sign s =>
      cases s with
      | leftParen =>
        apply uniform_advance.bind
        intro _
        apply h.bind
        intro expression
        exact uniform_expect_bind _ (uniform_pure _)
      | _ => exact uniform_unexpected
    | _ => exact uniform_unexpected

theorem uniform_expressionWith_and_extend (fuel : Nat) :
    (∀ minimum, Uniform (expressionWith fuel minimum)) ∧
      ∀ minimum left, Uniform (extend fuel minimum left) := by
  induction fuel with
  | zero => exact ⟨fun _ => uniform_throw _, fun _ left => uniform_pure left⟩
  | succ fuel ih =>
    obtain ⟨he, hx⟩ := ih
    constructor
    · intro minimum
      exact (uniform_operand (he 0)).bind (hx minimum)
    · intro minimum left
      apply uniform_currentKind.bind
      intro kind
      cases kind with
      | none => exact uniform_pure _
      | some kind =>
        dsimp only
        split
        · apply uniform_advance.bind
          intro _
          apply (he _).bind
          intro right
          exact hx minimum _
        · exact uniform_pure _

theorem uniform_expression (minimum : Nat) : Uniform (expression minimum) :=
  uniform_get_bind fun fuel => (uniform_expressionWith_and_extend fuel).1 minimum

theorem uniform_condition : Uniform condition := by
  apply (uniform_skip _).bind
  intro present
  split
  · exact (uniform_expression 0).bind fun _ => uniform_pure _
  · exact uniform_pure _

theorem uniform_projection : Uniform projection := by
  apply (uniform_skip _).bind
  intro all
  split
  · exact uniform_pure _
  · exact (uniform_commaList uniform_columnRef).bind fun _ => uniform_pure _

theorem uniform_orderKey : Uniform orderKey := by
  apply uniform_columnRef.bind
  intro column
  apply (uniform_skip _).bind
  intro descending
  split
  · exact uniform_pure _
  · apply (uniform_skip _).bind
    intro ascending
    split <;> exact uniform_pure _

theorem uniform_order : Uniform order := by
  apply (uniform_skip _).bind
  intro present
  split
  · exact uniform_expect_bind _ (uniform_commaList uniform_orderKey)
  · exact uniform_pure _

theorem uniform_unsigned : Uniform unsigned := by
  apply uniform_current_bind (uniform_throw _)
  intro t u h
  dsimp only
  rw [h.kind]
  split
  · next hk =>
    have hl := h.literal_eq fun k he => nomatch hk.symm.trans he
    rw [hl]
    split
    · exact uniform_advance.bind fun _ => uniform_pure _
    · exact uniform_throw _
  · split
    · exact uniform_throw _
    · exact uniform_unexpected

theorem uniform_limit : Uniform limit := by
  apply (uniform_skip _).bind
  intro present
  split
  · apply uniform_unsigned.bind
    intro first
    apply (uniform_skip _).bind
    intro comma
    split
    · exact uniform_unsigned.bind fun _ => uniform_pure _
    · apply (uniform_skip _).bind
      intro offset
      split
      · exact uniform_unsigned.bind fun _ => uniform_pure _
      · exact uniform_pure _
  · exact uniform_pure _

theorem uniform_select : Uniform select := by
  apply uniform_expect_bind
  apply uniform_projection.bind
  intro projection
  apply uniform_expect_bind
  apply uniform_identifier.bind
  intro table
  apply uniform_condition.bind
  intro condition
  apply uniform_order.bind
  intro order
  exact uniform_limit.bind fun _ => uniform_pure _

theorem uniform_parenthesized {item : Parser α} (hi : Uniform item) :
    Uniform (parenthesized item) := by
  apply uniform_expect_bind
  apply (uniform_commaList hi).bind
  intro items
  exact uniform_expect_bind _ (uniform_pure _)

theorem uniform_insert : Uniform insert := by
  apply uniform_expect_bind
  apply uniform_expect_bind
  apply uniform_identifier.bind
  intro table
  have htail (columns : Option (List String)) : Uniform (do
      let _ ← expect (.keyword .VALUES)
      let tuples ← commaList (parenthesized literal)
      return (⟨table, columns, tuples⟩ : Insert)) := by
    apply uniform_expect_bind
    apply (uniform_commaList (uniform_parenthesized uniform_literal)).bind
    intro tuples
    exact uniform_pure _
  apply (uniform_sees _).bind
  intro present
  split
  · apply Uniform.bind
    · exact (uniform_parenthesized uniform_identifier).bind fun _ => uniform_pure _
    · exact htail
  · exact (uniform_pure none).bind htail

theorem uniform_assignment : Uniform assignment := by
  apply uniform_identifier.bind
  intro column
  apply uniform_expect_bind
  exact uniform_literal.bind fun _ => uniform_pure _

theorem uniform_update : Uniform update := by
  apply uniform_expect_bind
  apply uniform_identifier.bind
  intro table
  apply uniform_expect_bind
  apply (uniform_commaList uniform_assignment).bind
  intro assignments
  exact uniform_condition.bind fun _ => uniform_pure _

theorem uniform_delete : Uniform delete := by
  apply uniform_expect_bind
  apply uniform_expect_bind
  apply uniform_identifier.bind
  intro table
  exact uniform_condition.bind fun _ => uniform_pure _

theorem uniform_columnType : Uniform columnType := by
  apply uniform_current_bind (uniform_throw _)
  intro t u h
  dsimp only
  rw [h.kind]
  cases t.kind with
  | identifier name =>
    apply uniform_advance.bind
    intro _
    apply (uniform_skip _).bind
    intro sized
    split
    · apply uniform_expect_bind
      apply (uniform_skip _).bind
      intro comma
      split
      · apply uniform_expect_bind
        exact uniform_expect_bind _ (uniform_pure _)
      · exact uniform_expect_bind _ (uniform_pure _)
    · exact uniform_pure _
  | _ => exact uniform_unexpected

theorem uniform_columnConstraints (fuel : Nat) : Uniform (columnConstraints fuel) := by
  induction fuel with
  | zero => exact uniform_pure _
  | succ fuel ih =>
    rw [columnConstraints]
    apply (uniform_skip _).bind
    intro isNot
    split
    · exact uniform_expect_bind _ ih
    apply (uniform_skip _).bind
    intro isNull
    split
    · exact ih
    apply (uniform_skip _).bind
    intro isUnique
    split
    · exact ih
    apply (uniform_skip _).bind
    intro isPrimary
    split
    · exact uniform_expect_bind _ ih
    apply (uniform_skip _).bind
    intro isDefault
    split
    · exact uniform_literal.bind fun _ => ih
    · exact uniform_pure _

theorem uniform_columnDefinition : Uniform columnDefinition := by
  apply uniform_identifier.bind
  intro name
  apply uniform_columnType.bind
  intro type
  apply uniform_get_bind (f := fun fuel => do columnConstraints fuel; return (name, type))
  intro fuel
  exact (uniform_columnConstraints fuel).bind fun _ => uniform_pure _

theorem uniform_tableItem : Uniform tableItem := by
  have hnames := uniform_parenthesized uniform_identifier
  apply (uniform_skip _).bind
  intro isPrimary
  split
  · apply uniform_expect_bind
    exact hnames.bind fun _ => uniform_pure _
  · apply (uniform_skip _).bind
    intro isUnique
    split
    · exact hnames.bind fun _ => uniform_pure _
    · exact uniform_columnDefinition.bind fun _ => uniform_pure _

theorem uniform_tableColumns : Uniform tableColumns := by
  apply (uniform_commaList uniform_tableItem).bind
  intro items
  dsimp only
  split
  · exact (uniform_throw _).bind fun _ => uniform_pure _
  · exact uniform_pure _

theorem uniform_create : Uniform create := by
  apply uniform_expect_bind
  apply (uniform_skip _).bind
  intro isTable
  split
  · apply uniform_identifier.bind
    intro table
    apply uniform_expect_bind
    apply uniform_tableColumns.bind
    intro columns
    exact uniform_expect_bind _ (uniform_pure _)
  · exact uniform_throw _

theorem uniform_drop : Uniform drop := by
  apply uniform_expect_bind
  apply (uniform_skip _).bind
  intro isTable
  split
  · exact uniform_identifier.bind fun _ => uniform_pure _
  · exact uniform_throw _

theorem uniform_map {p : Parser α} (hp : Uniform p) (f : α → γ) : Uniform (f <$> p) :=
  hp.bind fun a => uniform_pure (f a)

theorem uniform_statementBody : Uniform statementBody := by
  apply uniform_currentKind.bind
  intro kind
  cases kind with
  | none => exact uniform_unexpected
  | some kind =>
    cases kind with
    | keyword k =>
      cases k with
      | SELECT => exact uniform_map uniform_select _
      | INSERT => exact uniform_map uniform_insert _
      | UPDATE => exact uniform_map uniform_update _
      | DELETE => exact uniform_map uniform_delete _
      | CREATE => exact uniform_map uniform_create _
      | DROP => exact uniform_map uniform_drop _
      | _ => exact uniform_unexpected
    | _ => exact uniform_unexpected

theorem uniform_statement : Uniform statement := by
  apply uniform_statementBody.bind
  intro s
  apply (uniform_skip _).bind
  intro _
  exact uniform_expect_bind _ (uniform_pure _)

end

end Parser

/-- Texts of akin tokens are the same statement, or are refused with akin errors. -/
theorem parse_of_allAkin {text text' : String} (h : AllAkin (tokens text) (tokens text')) :
    (∃ s, parse text = .ok s ∧ parse text' = .ok s) ∨
      ∃ e e', parse text = .error e ∧ parse text' = .error e' ∧ e.Akin e' := by
  have ha := Parser.uniform_statement h
  rw [parse, parse]
  generalize Parser.statement (tokens text) = r at ha ⊢
  generalize Parser.statement (tokens text') = r' at ha ⊢
  cases ha with
  | ok hs _ =>
    subst hs
    exact .inl ⟨_, rfl, rfl⟩
  | error he => exact .inr ⟨_, _, rfl, rfl, he⟩

end DocBase.Sql
