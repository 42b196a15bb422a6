import DocBase.Proofs.Query.Select
import DocBase.Proofs.Sql.Parsing

namespace DocBase.Sql

/-- The comparisons of a condition from left to right, each with the name of its column. -/
def Expression.comparisons : Expression → List (String × Operator)
  | logical left _ right => left.comparisons ++ right.comparisons
  | comparison column operator _ => [(column.name, operator)]

def Expression.unevaluated (e : Expression) : List (String × Operator) :=
  e.comparisons.filter fun (_, operator) => operator = .lessEqual ∨ operator = .greaterEqual

def Select.unevaluated (s : Select) : List (String × Operator) :=
  s.condition.elim [] Expression.unevaluated

/-- The operator that a sign stands for if the comparisons by it are never evaluated. -/
def TokenKind.unevaluated? : TokenKind → Option Operator
  | sign .lessEqual => some .lessEqual
  | sign .greaterEqual => some .greaterEqual
  | _ => none

/-- The names that stand right before a sign of such a comparison, each with its operator. -/
def unevaluatedIn : List Token → List (String × Operator)
  | t :: u :: ts =>
    match t.kind, u.kind.unevaluated? with
    | .identifier name, some operator => (name, operator) :: unevaluatedIn (u :: ts)
    | _, _ => unevaluatedIn (u :: ts)
  | _ => []

namespace Grammar

/-- What follows does not start with a sign of such a comparison. -/
def Unmarked (rest : List Token) : Prop := ∀ t ∈ rest.head?, t.kind.unevaluated? = none

/-- Tokens that show these comparisons wherever they stand, if no such sign follows them. -/
structure Shows (ts : List Token) (found : List (String × Operator)) : Prop where
  unmarked {rest : List Token} : Unmarked rest → Unmarked (ts ++ rest)
  shows {rest : List Token} : Unmarked rest →
    unevaluatedIn (ts ++ rest) = found ++ unevaluatedIn rest

variable {ts us : List Token} {found more : List (String × Operator)}

theorem unmarked_cons {t : Token} {rest : List Token} (h : t.kind.unevaluated? = none) :
    Unmarked (t :: rest) := by
  intro u hu
  cases hu
  exact h

theorem unevaluatedIn_cons {t : Token} {rest : List Token} (h : Unmarked rest) :
    unevaluatedIn (t :: rest) = unevaluatedIn rest := by
  cases rest with
  | nil => rfl
  | cons u rest =>
    rw [unevaluatedIn, h u rfl]
    split
    · next he => cases he
    · rfl

theorem Shows.nil : Shows [] [] := ⟨id, fun _ => rfl⟩

theorem Shows.append (h : Shows ts found) (hm : Shows us more) :
    Shows (ts ++ us) (found ++ more) where
  unmarked hr := by
    rw [List.append_assoc]
    exact h.unmarked (hm.unmarked hr)
  shows hr := by
    rw [List.append_assoc, h.shows (hm.unmarked hr), hm.shows hr, List.append_assoc]

theorem Shows.before (h : Shows ts []) (hm : Shows us more) : Shows (ts ++ us) more :=
  h.append hm

theorem Shows.token {t : Token} {kind : TokenKind} (ht : t.kind = kind)
    (h : kind.unevaluated? = none) : Shows [t] [] :=
  ⟨fun _ => unmarked_cons (ht ▸ h), unevaluatedIn_cons⟩

end Grammar

end DocBase.Sql
