import DocBase.Proofs.Sql.Lexing
import DocBase.Proofs.Sql.Sentences

namespace DocBase.Sql

open Grammar

theorem rest_eq_nil {text : String} {us rest : List Token} {t : Token}
    (h : tokens text = us ++ t :: rest) (ht : t.kind = .endOfText) :
    us = words text ∧ rest = [] := by
  obtain ⟨e, he, _⟩ := tokens_eq text
  rw [he] at h
  rcases List.eq_nil_or_concat rest with rfl | ⟨vs, last, rfl⟩
  · exact ⟨(List.append_inj' h rfl).1.symm, rfl⟩
  · rw [List.concat_eq_append, ← List.cons_append, ← List.append_assoc] at h
    have hw : words text = us ++ t :: vs := (List.append_inj' h rfl).1
    exact absurd ht (kind_of_mem_words (by rw [hw]; simp))

theorem derives_of_parse {text : String} {s : Statement} (h : parse text = .ok s) :
    Text (words text) s := by
  rw [parse] at h
  split at h
  · next hs =>
    cases h
    obtain ⟨_, he, ⟨hw, ht⟩⟩ := Parser.reads_statement.sound (fun _ => lexed_of_mem_tokens) hs
    rw [List.append_assoc] at he
    rwa [← (rest_eq_nil he ht).1]
  · cases h

theorem parse_of_derives {text : String} {s : Statement} (h : Text (words text) s) :
    parse text = .ok s := by
  obtain ⟨e, he, hk⟩ := tokens_eq text
  have hr := Parser.reads_statement.complete (.mk h hk) (.none [])
  rw [List.append_nil, ← he] at hr
  rw [parse, hr]

/-- A text is parsed as a statement exactly if its tokens up to the end derive it, and they derive no
other one. -/
theorem parse_iff_derives (text : String) (s : Statement) :
    (parse text = .ok s ↔ Text (words text) s) ∧
      (Text (words text) s → ∀ other, Text (words text) other → other = s) := by
  refine ⟨⟨derives_of_parse, parse_of_derives⟩, ?_⟩
  intro h other ho
  have he := (parse_of_derives ho).symm.trans (parse_of_derives h)
  exact Except.ok.inj he

/-- Whether a text is a statement can be decided by running the parser. -/
theorem parse_eq_ok_of_toOption {text : String} {s : Statement}
    (h : (parse text).toOption = some s) : parse text = .ok s := by
  cases hp : parse text with
  | error e =>
    rw [hp] at h
    cases h
  | ok t =>
    rw [hp] at h
    cases h
    rfl

theorem parse_iff_derives_of_mixed_condition :
    Text (words "delete from t where a = 1 or b is not 'x' and c != 2;")
        (.delete ⟨"t", some (.logical (.comparison ⟨none, "a"⟩ .equal (.ofInt 1)) .or
          (.logical (.comparison ⟨none, "b"⟩ .isNot (.text "x")) .and
            (.comparison ⟨none, "c"⟩ .notEqual (.ofInt 2))))⟩) ∧
      ¬ Text (words "delete from t where a = 1 or b is not 'x' and c != 2;")
        (.delete ⟨"t", some (.logical (.logical (.comparison ⟨none, "a"⟩ .equal (.ofInt 1)) .or
          (.comparison ⟨none, "b"⟩ .isNot (.text "x"))) .and
            (.comparison ⟨none, "c"⟩ .notEqual (.ofInt 2)))⟩) := by
  have hboth {P Q : Prop} (hp : P) (hq : P → Q) : P ∧ Q := ⟨hp, hq hp⟩
  apply hboth
  · exact (parse_iff_derives _ _).1.1 (parse_eq_ok_of_toOption (by decide +kernel))
  · intro h hn
    cases (parse_iff_derives _ _).2 h _ hn

end DocBase.Sql
