import DocBase.Proofs.Sql.TableDefinitions

namespace DocBase.Sql.Parser

open Grammar

theorem reads_columnList : Reads (do
    if ← sees (.sign .leftParen) then some <$> parenthesized identifier else pure none)
    ColumnList [.sign .leftParen] where
  sound {ts} _ _ hl h := by
    rcases clear_or_cons (.sign .leftParen) ts with hc | ⟨t, us, rfl, ht⟩
    · rw [bind_of_ok (sees_clear (.sign .leftParen) hc)] at h
      cases h
      exact ⟨[], rfl, .absent⟩
    · rw [bind_of_ok (sees_cons (.sign .leftParen) ht us)] at h
      obtain ⟨used, he, _, hu, rfl⟩ := ((reads_parenthesized reads_identifier (by simp)
        (by simp)).functor some).sound hl h
      exact ⟨used, he, .present hu⟩
  complete {_ rest _} h hr := by
    cases h with
    | absent =>
      rw [List.nil_append, bind_of_ok (sees_clear (.sign .leftParen) hr)]
      rfl
    | present hp =>
      have hm := ((reads_parenthesized reads_identifier (by simp) (by simp)).functor
        some).complete ⟨_, hp, rfl⟩ (.none rest)
      obtain ⟨hl, _, _⟩ := hp
      obtain ⟨t, rfl, ht⟩ := hl.one
      exact (bind_of_ok (sees_cons (.sign .leftParen) ht _)).trans hm

theorem ite_bind {α β : Type} (p : Parser Bool) (yes no : Parser α) (f : α → Parser β) :
    (do if ← p then yes >>= f else no >>= f) = (do if ← p then yes else no) >>= f := by
  rw [bind_assoc]
  congr 1
  funext b
  cases b <;> rfl

theorem reads_insert :
    Reads insert (fun ts s => Sentence ts (.insert s)) [.sign .comma] := by
  have ht (table : String) (columns : Option (List String)) := Reads.expect (.keyword .VALUES)
    ((reads_commaList (reads_parenthesized reads_literal (by simp) (by simp)) (by simp)).map
      fun tuples => (⟨table, columns, tuples⟩ : Insert))
  have hc (table : String) := reads_columnList.bind (ht table) fun h _ => h.clear (by simp)
  simp only [← ite_bind] at hc
  refine (Reads.expect (.keyword .INSERT) (Reads.expect (.keyword .INTO)
    (reads_identifier.andThen hc))).mono ?_ ?_
  · intro _ _ h
    obtain ⟨hi, hw, hn, hc, hv, _, ht, rfl⟩ := h
    exact .insert (spelled_two hi hw) hn hc (spelled_one hv) ht
  · intro _ _ h
    cases h with
    | insert hw hn hc hv ht => exact hw.marked_two (.mk hn (.mk hc (hv.marked ⟨_, ht, rfl⟩)))

theorem reads_assignment : Reads assignment Assigned [] := by
  have hl (column : String) := Reads.expect (.sign .equal)
    (reads_literal.map fun literal => (⟨column, literal⟩ : Assignment))
  apply (reads_identifier.andThen hl).mono
  · intro _ _ h
    obtain ⟨hn, he, _, hl, rfl⟩ := h
    exact .mk hn (spelled_one he) hl
  · intro _ _ h
    obtain ⟨hn, he, hl⟩ := h
    exact .mk hn (he.marked ⟨_, hl, rfl⟩)

theorem reads_update :
    Reads update (fun ts s => Sentence ts (.update s)) sentenceStops := by
  have hc (table : String) (assignments : List Assignment) :=
    (reads_condition.weaken sentenceStops (by simp)).map
      fun condition => (⟨table, assignments, condition⟩ : Update)
  have hs (table : String) := Reads.expect (.keyword .SET)
    ((reads_commaList reads_assignment (by simp)).bind (hc table) fun ⟨_, h, _⟩ hr =>
      clear_of_where h (by simp) (hr.weaken (by simp)))
  apply (Reads.expect (.keyword .UPDATE) (reads_identifier.andThen hs)).mono
  · intro _ _ h
    obtain ⟨hu, hn, hs, hl, _, hc, rfl⟩ := h
    exact .update (spelled_one hu) hn (spelled_one hs) hl hc
  · intro _ _ h
    cases h with
    | update hu hn hs hl hc => exact hu.marked (.mk hn (hs.marked (.mk hl ⟨_, hc, rfl⟩)))

theorem reads_delete :
    Reads delete (fun ts s => Sentence ts (.delete s)) sentenceStops := by
  have hc (table : String) := (reads_condition.weaken sentenceStops (by simp)).map
    fun condition => (⟨table, condition⟩ : Delete)
  refine (Reads.expect (.keyword .DELETE) (Reads.expect (.keyword .FROM)
    (reads_identifier.andThen hc))).mono ?_ ?_
  · intro _ _ h
    obtain ⟨hd, hf, hn, _, hc, rfl⟩ := h
    exact .delete (spelled_two hd hf) hn hc
  · intro _ _ h
    cases h with
    | delete hw hn hc => exact hw.marked_two (.mk hn ⟨_, hc, rfl⟩)

def firstWord : Statement → Keyword
  | .select _ => .SELECT
  | .insert _ => .INSERT
  | .update _ => .UPDATE
  | .delete _ => .DELETE
  | .create _ => .CREATE
  | .drop _ => .DROP

theorem sentence_starts {ts : List Token} {s : Statement} (h : Sentence ts s) :
    ∃ t us, ts = t :: us ∧ t.kind = .keyword (firstWord s) := by
  cases h with
  | create hw | drop hw | insert hw | update hw | delete hw | select hw =>
    obtain ⟨t, us, rfl, ht, _⟩ := hw.uncons
    exact ⟨t, _, rfl, ht⟩

def bodyOf : Keyword → Parser Statement
  | .SELECT => .select <$> select
  | .INSERT => .insert <$> insert
  | .UPDATE => .update <$> update
  | .DELETE => .delete <$> delete
  | .CREATE => .create <$> create
  | .DROP => .drop <$> drop
  | _ => do throw (← unexpected)

theorem statementBody_of_keyword {t : Token} {k : Keyword} (hk : t.kind = .keyword k)
    (ts : List Token) : statementBody (t :: ts) = bodyOf k (t :: ts) := by
  rw [statementBody, currentKind_bind]
  dsimp only [List.head?_cons, Option.map_some]
  rw [hk]
  cases k <;> rfl

theorem reads_sentence {α : Type} {p : Parser α} {g : α → Statement} {k : Keyword}
    (h : Reads p (fun ts q => Sentence ts (g q)) sentenceStops) (hg : ∀ q, firstWord (g q) = k)
    (hk : ∀ s, firstWord s = k → ∃ q, s = g q) :
    Reads (g <$> p) (fun ts s => Sentence ts s ∧ firstWord s = k) sentenceStops := by
  apply (h.functor g).mono
  · intro _ _ h
    obtain ⟨q, h, rfl⟩ := h
    exact ⟨h, hg q⟩
  · intro _ s h
    obtain ⟨h, hs⟩ := h
    obtain ⟨q, rfl⟩ := hk s hs
    exact ⟨q, h, rfl⟩

theorem reads_bodyOf (k : Keyword) :
    Reads (bodyOf k) (fun ts s => Sentence ts s ∧ firstWord s = k) sentenceStops := by
  cases k with
  | SELECT =>
    apply reads_sentence reads_select (fun _ => rfl)
    intro s hs
    cases s with
    | select q => exact ⟨q, rfl⟩
    | _ => cases hs
  | INSERT =>
    apply reads_sentence (reads_insert.weaken _ (by simp)) (fun _ => rfl)
    intro s hs
    cases s with
    | insert q => exact ⟨q, rfl⟩
    | _ => cases hs
  | UPDATE =>
    apply reads_sentence reads_update (fun _ => rfl)
    intro s hs
    cases s with
    | update q => exact ⟨q, rfl⟩
    | _ => cases hs
  | DELETE =>
    apply reads_sentence reads_delete (fun _ => rfl)
    intro s hs
    cases s with
    | delete q => exact ⟨q, rfl⟩
    | _ => cases hs
  | CREATE =>
    apply reads_sentence reads_create.free (fun _ => rfl)
    intro s hs
    cases s with
    | create q => exact ⟨q, rfl⟩
    | _ => cases hs
  | DROP =>
    apply reads_sentence reads_drop.free (fun _ => rfl)
    intro s hs
    cases s with
    | drop q => exact ⟨q, rfl⟩
    | _ => cases hs
  | _ =>
    refine ⟨fun _ h => absurd h unexpected_ne_ok, @fun _ _ s h _ => ?_⟩
    cases s <;> cases h.2

theorem reads_statementBody : Reads statementBody Sentence sentenceStops where
  sound {ts} rest s hl h := by
    cases ts with
    | nil => cases h
    | cons t us =>
      cases hk : t.kind with
      | keyword k =>
        rw [statementBody_of_keyword hk] at h
        obtain ⟨used, he, hu, _⟩ := (reads_bodyOf k).sound hl h
        exact ⟨used, he, hu⟩
      | _ =>
        rw [statementBody, currentKind_bind] at h
        dsimp only [List.head?_cons, Option.map_some] at h
        rw [hk] at h
        cases h
  complete h hr := by
    obtain ⟨t, us, rfl, hk⟩ := sentence_starts h
    exact (statementBody_of_keyword hk _).trans ((reads_bodyOf _).complete ⟨h, rfl⟩ hr)

inductive Whole : Phrase Statement
  | mk {ts : List Token} {t : Token} {s : Statement} : Text ts s → t.kind = .endOfText →
    Whole (ts ++ [t]) s

theorem reads_statement : Reads statement Whole [] := by
  have he (s : Statement) := Reads.expect .endOfText (Reads.pure s)
  have hs (s : Statement) := (Reads.skip (.sign .semicolon)).bind (fun _ => he s)
    fun h _ => h.clear (by simp)
  refine (reads_statementBody.bind hs ?_).mono ?_ ?_
  · intro s _ _ rest h _
    obtain ⟨⟨_, h⟩ | ⟨_, rfl⟩, he⟩ := h
    · rw [List.append_assoc]
      exact h.clear (by simp)
    · exact he.clear (by simp)
  · intro _ _ h
    obtain ⟨h, ⟨⟨_, hs⟩ | ⟨_, rfl⟩, ⟨ht, rfl, rfl⟩⟩⟩ := h
    · rw [← List.append_assoc]
      exact .mk (.terminated h hs) ht
    · exact .mk (.plain h) ht
  · intro _ _ h
    obtain ⟨h | ⟨h, hs⟩, ht⟩ := h
    · rw [← List.nil_append ([_] : List Token)]
      exact .mk h (.mk (.inr ⟨rfl, rfl⟩) (.mk ht ⟨rfl, rfl⟩))
    · rw [List.append_assoc]
      exact .mk h (.mk (.inl ⟨rfl, hs⟩) (.mk ht ⟨rfl, rfl⟩))

end DocBase.Sql.Parser
