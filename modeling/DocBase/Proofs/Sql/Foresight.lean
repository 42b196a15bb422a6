import DocBase.Proofs.Sql.Composing
import DocBase.Proofs.Sql.Consumption

namespace DocBase.Sql

open Grammar

def AtEnd (ts : List Token) : Prop := ∀ t ∈ ts.head?, t.kind = .endOfText

/-- An error that tells of the next one of these tokens, or that the text ends here. -/
inductive ParseError.Tells : ParseError → List Token → Prop
  | unexpectedToken {t : Token} (ts : List Token) : t.kind ≠ .endOfText →
      Tells (.unexpectedToken t) (t :: ts)
  | expectedToken (expected : TokenKind) {t : Token} (ts : List Token) : t.kind ≠ .endOfText →
      Tells (.expectedToken expected t) (t :: ts)
  | endOfInput {ts : List Token} : AtEnd ts → Tells .endOfInput ts

/-- An error that tells what is wrong and not which token. -/
inductive ParseError.Placeless : ParseError → Prop
  | invalidLiteral (literal : String) : Placeless (.invalidLiteral literal)
  | invalidSyntax (reason : String) : Placeless (.invalidSyntax reason)

variable {α β : Type}

/-- Tokens that further ones make a phrase of, and these can be written. -/
def Grammar.Completable (P : Phrase α) (used : List Token) : Prop :=
  ∃ more a, (∀ t ∈ more, t.Writable) ∧ P (used ++ more) a

/-- What a parser takes off tokens that a text can have is a phrase. -/
abbrev Parser.Sound (p : Parser α) (P : Phrase α) : Prop :=
  ∀ ⦃ts rest : List Token⦄ ⦃a : α⦄, (∀ t ∈ ts, t.Lexed) → p ts = .ok a rest →
    ∃ used, ts = used ++ rest ∧ P used a

theorem Reads.isSound {p : Parser α} {P : Phrase α} {stops : List TokenKind}
    (h : Reads p P stops) : p.Sound P :=
  fun _ _ _ => h.sound

/-- What a parser answers on tokens does not depend on those behind the first one left. -/
def Parser.Steady (p : Parser α) (used rest : List Token)
    (answer : List Token → EStateM.Result ParseError (List Token) α) : Prop :=
  ∀ ⦃rest' : List Token⦄, rest'.head? = rest.head? → p (used ++ rest') = answer rest'

/-- How a parser answers that foresees a phrase. -/
inductive Foreseen (p : Parser α) (P : Phrase α) (ts : List Token) : Prop
  | ok (used : List Token) {rest : List Token} (a : α) : ts = used ++ rest →
      (∀ t ∈ used, t.kind.Proper) → p.Steady used rest (.ok a) → Foreseen p P ts
  | refused (used : List Token) {rest : List Token} (e : ParseError) : ts = used ++ rest →
      (∀ t ∈ used, t.kind.Proper) → p.Steady used rest (.error e) → e.Tells rest →
      ((∀ t ∈ ts, t.Lexed) → Completable P used) → Foreseen p P ts
  | invalid {rest : List Token} {e : ParseError} : p ts = .error e rest → e.Placeless →
      Foreseen p P ts

/-- A parser of a phrase that can be written, which foresees it on all tokens. -/
structure Foresees (p : Parser α) (P : Phrase α) : Prop where
  live : Completable P []
  foreseen : ∀ ts : List Token, Foreseen p P ts

namespace Grammar.Completable

variable {P : Phrase α} {Q : α → Phrase β} {k : TokenKind} {used : List Token}

theorem imp {R : Phrase β} {us vs : List Token} (h : Completable P us)
    (hr : ∀ more a, P (us ++ more) a → ∃ b, R (vs ++ more) b) : Completable R vs := by
  obtain ⟨more, a, hm, ha⟩ := h
  obtain ⟨b, hb⟩ := hr more a ha
  exact ⟨more, b, hm, hb⟩

theorem mono {P' : Phrase α} (h : Completable P used) (forth : ∀ {ts a}, P ts a → P' ts a) :
    Completable P' used :=
  h.imp fun _ a ha => ⟨a, forth ha⟩

theorem silent (a : α) : Completable (Silent a) [] := ⟨[], a, nofun, rfl, rfl⟩

theorem sequence (h : Completable P used) (hq : ∀ a, Completable (Q a) []) :
    Completable (Sequence P Q) used := by
  obtain ⟨more, a, hm, ha⟩ := h
  obtain ⟨rest, b, hr, hb⟩ := hq a
  refine ⟨more ++ rest, b, List.forall_mem_append.2 ⟨hm, hr⟩, ?_⟩
  rw [← List.append_assoc]
  exact .mk ha hb

theorem behind {us : List Token} {a : α} (ha : P us a) (h : Completable (Q a) used) :
    Completable (Sequence P Q) (us ++ used) := by
  apply h.imp
  intro more b hb
  rw [List.append_assoc]
  exact ⟨b, .mk ha hb⟩

theorem marked (hk : k.Usual) (h : Completable P []) : Completable (Marked k P) [] := by
  obtain ⟨t, ht, hw⟩ := hk.written
  obtain ⟨more, a, hm, ha⟩ := h
  exact ⟨t :: more, a, List.forall_mem_cons.2 ⟨hw, hm⟩, .mk ht ha⟩

end Grammar.Completable

theorem head?_append_congr (used : List Token) {rest rest' : List Token}
    (h : rest'.head? = rest.head?) : (used ++ rest').head? = (used ++ rest).head? := by
  cases used with
  | nil => exact h
  | cons _ _ => rfl

theorem Clear.of_head?_eq {blocked : List TokenKind} {ts us : List Token} (h : Clear blocked ts)
    (hu : us.head? = ts.head?) : Clear blocked us := by
  rwa [Clear, hu]

theorem atEnd_or_cons (ts : List Token) :
    AtEnd ts ∨ ∃ t us, ts = t :: us ∧ t.kind ≠ .endOfText := by
  cases ts with
  | nil => exact .inl nofun
  | cons t us =>
    by_cases h : t.kind = .endOfText
    · refine .inl fun u hu => ?_
      cases hu
      exact h
    · exact .inr ⟨t, us, rfl, h⟩

namespace Parser

theorem unexpected_of_atEnd {ts : List Token} (h : AtEnd ts) :
    (do throw (← unexpected) : Parser α) ts = .error .endOfInput ts := by
  cases ts with
  | nil => rfl
  | cons t us =>
    have hu : unexpected (t :: us) = .ok .endOfInput (t :: us) := by
      rw [unexpected, if_pos (h t rfl)]
    rw [bind_of_ok hu]
    rfl

theorem unexpected_of_word {t : Token} (h : t.kind ≠ .endOfText) (us : List Token) :
    (do throw (← unexpected) : Parser α) (t :: us) = .error (.unexpectedToken t) (t :: us) := by
  have hu : unexpected (t :: us) = .ok (.unexpectedToken t) (t :: us) := by
    rw [unexpected, if_neg h]
  rw [bind_of_ok hu]
  rfl

/-- The token in front is the one expected, or it alone tells what is wrong. -/
theorem expect_cases {k : TokenKind} (hk : k.Exact) (ts : List Token) :
    (∃ t us, ts = t :: us ∧ t.kind = k) ∨
      ∃ e : ParseError, e.Tells ts ∧
        ∀ us : List Token, us.head? = ts.head? → expect k us = .error e us := by
  cases ts with
  | nil =>
    refine .inr ⟨.endOfInput, .endOfInput nofun, fun us hu => ?_⟩
    rw [List.head?_eq_none_iff.1 hu]
    rfl
  | cons t ts =>
    by_cases hkind : t.kind = k
    · exact .inl ⟨t, ts, rfl, hkind⟩
    have hm : ¬ t.kind.meets k = true := fun hm => hkind ((hk _).1 hm)
    by_cases ht : t.kind = .endOfText
    · have he : AtEnd (t :: ts) := fun u hu => Option.some.inj hu ▸ ht
      refine .inr ⟨.endOfInput, .endOfInput he, fun us hu => ?_⟩
      obtain ⟨vs, rfl⟩ := List.head?_eq_some_iff.1 hu
      rw [expect, current_bind]
      dsimp only [List.head?_cons]
      rw [if_neg hm, if_pos ht]
      rfl
    · refine .inr ⟨.expectedToken k t, .expectedToken k ts ht, fun us hu => ?_⟩
      obtain ⟨vs, rfl⟩ := List.head?_eq_some_iff.1 hu
      rw [expect, current_bind]
      dsimp only [List.head?_cons]
      rw [if_neg hm, if_neg ht]
      rfl

end Parser

namespace Foreseen

open DocBase.Sql.Parser

variable {p q : Parser α} {f : α → Parser β} {P Q : Phrase α} {R : α → Phrase β}
  {ts us : List Token} {t : Token} {e : ParseError} {a : α} {k : TokenKind}

theorem mono (h : Foreseen p P ts) (forth : ∀ {ts a}, P ts a → Q ts a) : Foreseen p Q ts := by
  cases h with
  | ok used a hts hl hs => exact .ok used a hts hl hs
  | refused used e hts hl hs he hc =>
    exact .refused used e hts hl hs he fun hlex => (hc hlex).mono forth
  | invalid hs he => exact .invalid hs he

theorem stay (h : ∀ us : List Token, us.head? = ts.head? → p us = .ok a us) : Foreseen p P ts :=
  .ok [] a rfl nofun h

theorem take (h : ∀ us, p (t :: us) = .ok a us) (ht : t.kind.Proper) (us : List Token) :
    Foreseen p P (t :: us) :=
  .ok [t] a rfl (List.forall_mem_singleton.2 ht) fun _ _ => h _

theorem refuse (h : ∀ us : List Token, us.head? = ts.head? → p us = .error e us) (he : e.Tells ts)
    (hc : Completable P []) : Foreseen p P ts :=
  .refused [] e rfl nofun h he fun _ => hc

theorem congr (h : ∀ us : List Token, us.head? = ts.head? → p us = q us) (hq : Foreseen q P ts) :
    Foreseen p P ts := by
  cases hq with
  | @ok used rest a hts hl hs =>
    refine .ok used a hts hl fun rest' hr => ?_
    rw [h _ (hts ▸ head?_append_congr used hr), hs hr]
  | @refused used rest e hts hl hs he hc =>
    refine .refused used e hts hl (fun rest' hr => ?_) he hc
    rw [h _ (hts ▸ head?_append_congr used hr), hs hr]
  | invalid hs he => exact .invalid ((h ts rfl).trans hs) he

theorem congr_cons (h : ∀ us, p (t :: us) = q (t :: us)) (hq : Foreseen q P (t :: us)) :
    Foreseen p P (t :: us) := by
  apply congr _ hq
  intro vs hv
  obtain ⟨vs, rfl⟩ := List.head?_eq_some_iff.1 hv
  exact h vs

theorem behind {Q : Phrase α} (h : ∀ us, p (t :: us) = q us) (ht : t.kind.Proper)
    (hq : Foreseen q Q us) (forth : ∀ {vs a}, Q vs a → P (t :: vs) a) :
    Foreseen p P (t :: us) := by
  cases hq with
  | @ok used rest a hts hl hs =>
    refine .ok (t :: used) a (congrArg (t :: ·) hts) (List.forall_mem_cons.2 ⟨ht, hl⟩)
      fun rest' hr => ?_
    rw [List.cons_append, h, hs hr]
  | @refused used rest e hts hl hs he hc =>
    refine .refused (t :: used) e (congrArg (t :: ·) hts) (List.forall_mem_cons.2 ⟨ht, hl⟩)
      (fun rest' hr => ?_) he ?_
    · rw [List.cons_append, h, hs hr]
    · intro hlex
      exact (hc fun u hu => hlex u (.tail _ hu)).imp fun _ b hb => ⟨b, forth hb⟩
  | invalid hs he => exact .invalid ((h us).trans hs) he

/-- Where the second parser refuses a token, what the first one took is a phrase; where the first
one does, what it took is completed and a phrase for the second one put behind it. -/
theorem bind (hs : p.Sound P) (hp : Foreseen p P ts)
    (hf : ∀ a mid, p ts = .ok a mid → Foreseen (f a) (R a) mid)
    (hr : ∀ a, Completable (R a) []) : Foreseen (p >>= f) (Sequence P R) ts := by
  cases hp with
  | @ok us mid a hts hl hp =>
    have hmid : p ts = .ok a mid := by
      rw [hts]
      exact hp rfl
    cases hf a mid hmid with
    | @ok vs rest b hmid' hl' hf =>
      refine .ok (us ++ vs) b (by rw [hts, hmid', List.append_assoc])
        (List.forall_mem_append.2 ⟨hl, hl'⟩) fun rest' hrest => ?_
      rw [List.append_assoc, bind_of_ok (hp (hmid' ▸ head?_append_congr vs hrest)), hf hrest]
    | @refused vs rest e hmid' hl' hf he hc =>
      refine .refused (us ++ vs) e (by rw [hts, hmid', List.append_assoc])
        (List.forall_mem_append.2 ⟨hl, hl'⟩) (fun rest' hrest => ?_) he ?_
      · rw [List.append_assoc, bind_of_ok (hp (hmid' ▸ head?_append_congr vs hrest)), hf hrest]
      · intro hlex
        -- What the first parser took is what stands before the second one, so it is a phrase.
        obtain ⟨used, hu, ha⟩ := hs hlex hmid
        obtain rfl := List.append_cancel_right (hu.symm.trans hts)
        exact .behind ha (hc fun t ht => hlex t (hts ▸ List.mem_append_right _ ht))
    | invalid hf he => exact .invalid ((bind_of_ok hmid).trans hf) he
  | refused used e hts hl hp he hc =>
    exact .refused used e hts hl (fun rest' hrest => bind_of_error (hp hrest)) he
      fun hlex => (hc hlex).sequence hr
  | invalid hp he => exact .invalid (bind_of_error hp) he

theorem telling (he : e.Tells ts) (hc : Completable P []) : Foreseen (throw e) P ts :=
  .refuse (fun _ _ => rfl) he hc

theorem placeless (he : e.Placeless) : Foreseen (throw e) P ts := .invalid rfl he

theorem unexpected (hc : Completable P []) (ts : List Token) :
    Foreseen (do throw (← Parser.unexpected)) P ts := by
  rcases atEnd_or_cons ts with he | ⟨t, us, rfl, ht⟩
  · refine refuse (fun us hu => ?_) (.endOfInput he) hc
    have hend : AtEnd us := by rwa [AtEnd, hu]
    exact unexpected_of_atEnd hend
  · refine refuse (fun us hu => ?_) (.unexpectedToken us ht) hc
    obtain ⟨vs, rfl⟩ := List.head?_eq_some_iff.1 hu
    exact unexpected_of_word ht vs

theorem current {g : Token → Parser α}
    (hend : ∀ t us, t.kind = .endOfText → g t (t :: us) = .error .endOfInput (t :: us))
    (hc : Completable P [])
    (hg : ∀ t us, ts = t :: us → t.kind ≠ .endOfText → Foreseen (g t) P (t :: us)) :
    Foreseen (do
      match ← Parser.current with
      | some t => g t
      | none => throw .endOfInput) P ts := by
  rcases atEnd_or_cons ts with he | ⟨t, us, rfl, ht⟩
  · refine refuse (fun us hu => ?_) (.endOfInput he) hc
    cases us with
    | nil => rfl
    | cons u us => exact hend u us (he u hu.symm)
  · exact congr_cons (q := g t) (fun _ => rfl) (hg t us rfl ht)

theorem expect (hk : k.Usual) (hc : Completable P [])
    (hp : ∀ t us, ts = t :: us → Foreseen p P us) :
    Foreseen (do let _ ← Parser.expect k; p) (Marked k P) ts := by
  rcases expect_cases hk.exact ts with ⟨t, us, rfl, ht⟩ | ⟨e, he, hs⟩
  · exact behind (fun us => bind_of_ok (expect_cons hk.exact ht us)) (ht ▸ hk.proper)
      (hp t us rfl) (.mk ht)
  · exact refuse (fun us hu => bind_of_error (hs us hu)) he (.marked hk hc)

theorem skipElse (hk : k.Usual) (hp : ∀ t us, ts = t :: us → Foreseen p P us)
    (hq : Foreseen q Q ts) :
    Foreseen (do if ← skip k then p else q) (fun ts a => Marked k P ts a ∨ Q ts a) ts := by
  rcases clear_or_cons k ts with hc | ⟨t, us, rfl, ht⟩
  · apply congr (q := q) _ (hq.mono .inr)
    intro us hu
    exact bind_of_ok (skip_clear hk.exact (hc.of_head?_eq hu))
  · exact behind (fun us => bind_of_ok (skip_cons hk.exact ht us)) (ht ▸ hk.proper) (hp t us rfl)
      fun h => .inl (.mk ht h)

end Foreseen

namespace Foresees

open DocBase.Sql.Parser

variable {p q : Parser α} {f : α → Parser β} {P Q : Phrase α} {R : α → Phrase β} {k : TokenKind}
  {stops : List TokenKind}

theorem mono (h : Foresees p P) (forth : ∀ {ts a}, P ts a → Q ts a) : Foresees p Q where
  live := h.live.mono forth
  foreseen ts := (h.foreseen ts).mono forth

theorem pure (a : α) : Foresees (pure a) (Silent a) where
  live := .silent a
  foreseen _ := .stay fun _ _ => rfl

theorem bind (hs : Reads p P stops) (hp : Foresees p P) (hf : ∀ a, Foresees (f a) (R a)) :
    Foresees (p >>= f) (Sequence P R) where
  live := hp.live.sequence fun a => (hf a).live
  foreseen ts := .bind hs.isSound (hp.foreseen ts) (fun a mid _ => (hf a).foreseen mid)
    fun a => (hf a).live

theorem map (hs : Reads p P stops) (hp : Foresees p P) (g : α → β) :
    Foresees (do return g (← p)) (fun ts b => ∃ a, P ts a ∧ b = g a) := by
  apply (hp.bind hs fun a => pure (g a)).mono
  intro _ _ h
  obtain ⟨ha, rfl, rfl⟩ := h
  rw [List.append_nil]
  exact ⟨_, ha, rfl⟩

theorem functor (hs : Reads p P stops) (hp : Foresees p P) (g : α → β) :
    Foresees (g <$> p) (fun ts b => ∃ a, P ts a ∧ b = g a) := by
  rw [map_eq_pure_bind]
  exact hp.map hs g

theorem expect (hk : k.Usual) (hp : Foresees p P) :
    Foresees (do let _ ← Parser.expect k; p) (Marked k P) where
  live := .marked hk hp.live
  foreseen _ := .expect hk hp.live fun _ us _ => hp.foreseen us

theorem skipElse (hk : k.Usual) (hp : Foresees p P) (hq : Foresees q Q) :
    Foresees (do if ← skip k then p else q) (fun ts a => Marked k P ts a ∨ Q ts a) where
  live := hq.live.mono .inr
  foreseen ts := .skipElse hk (fun _ us _ => hp.foreseen us) (hq.foreseen ts)

theorem optional (hk : k.Usual) (hp : Foresees p P) (a : α) :
    Foresees (do if ← skip k then p else return a)
      (fun ts b => Marked k P ts b ∨ Silent a ts b) :=
  skipElse hk hp (pure a)

theorem skipOrFail (hk : k.Usual) (hp : Foresees p P) {e : ParseError} (he : e.Placeless) :
    Foresees (do if ← skip k then p else throw e) (Marked k P) where
  live := .marked hk hp.live
  foreseen ts := by
    have hq : Foreseen (throw e : Parser α) (fun _ _ => False) ts := .invalid rfl he
    exact (Foreseen.skipElse hk (fun _ us _ => hp.foreseen us) hq).mono fun h =>
      h.resolve_right id

theorem takes (h : Foresees p P) : Takes 0 p := by
  intro ts rest a hp
  cases h.foreseen ts with
  | @ok used rest' b hts _ hs =>
    subst hts
    cases hp.symm.trans (hs rfl)
    rw [List.length_append]
    omega
  | refused used e hts _ hs _ _ =>
    subst hts
    cases hp.symm.trans (hs rfl)
  | invalid hs _ => cases hp.symm.trans hs

end Foresees

end DocBase.Sql
