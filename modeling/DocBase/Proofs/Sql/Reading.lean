import DocBase.Proofs.Sql.Grammar
import DocBase.Sql.Parser

namespace DocBase.Sql

/-- Number tokens hold their digits. -/
def Token.Lexed (t : Token) : Prop :=
  (t.kind = .integer → ∃ digits, t.IsInteger digits) ∧
    (t.kind = .float → ∃ whole fraction, t.IsFloat whole fraction)

theorem TokenKind.keyword_meets {kind : TokenKind} {k : Keyword} :
    kind.meets (.keyword k) ↔ kind = .keyword k := by
  cases kind <;> simp [meets]

theorem TokenKind.sign_meets {kind : TokenKind} {s : Sign} :
    kind.meets (.sign s) ↔ kind = .sign s := by
  cases kind <;> simp [meets]

/-- An expectation that only its own kind meets. -/
def TokenKind.Exact (expected : TokenKind) : Prop :=
  ∀ kind : TokenKind, kind.meets expected ↔ kind = expected

theorem TokenKind.Exact.keyword (k : Keyword) : Exact (.keyword k) := by
  intro _
  exact keyword_meets

theorem TokenKind.Exact.sign (s : Sign) : Exact (.sign s) := by
  intro _
  exact sign_meets

theorem TokenKind.Exact.integer : Exact .integer := by
  intro kind
  cases kind <;> simp [meets]

theorem TokenKind.Exact.endOfText : Exact .endOfText := by
  intro kind
  cases kind <;> simp [meets]

/-- What follows a phrase does not start with one of these kinds. -/
def Clear (blocked : List TokenKind) (rest : List Token) : Prop :=
  ∀ t ∈ rest.head?, t.kind ∉ blocked

theorem Clear.none (rest : List Token) : Clear [] rest := by
  intro _ _
  exact List.not_mem_nil

theorem Clear.weaken {blocked more : List TokenKind} {rest : List Token} (h : Clear more rest)
    (hs : blocked ⊆ more) : Clear blocked rest := by
  intro t ht hm
  exact h t ht (hs hm)

theorem Clear.cons {blocked : List TokenKind} {t : Token} {rest : List Token}
    (h : t.kind ∉ blocked) : Clear blocked (t :: rest) := by
  intro u hu
  cases hu
  exact h

theorem clear_or_cons (k : TokenKind) (ts : List Token) :
    Clear [k] ts ∨ ∃ t us, ts = t :: us ∧ t.kind = k := by
  cases ts with
  | nil => exact .inl fun _ ht => nomatch ht
  | cons t us =>
    by_cases ht : t.kind = k
    · exact .inr ⟨t, us, rfl, ht⟩
    · exact .inl (.cons fun hm => ht (List.mem_singleton.1 hm))

namespace Grammar

variable {α β : Type}

/-- A phrase and one behind it that may depend on what the first stands for. -/
inductive Sequence (first : Phrase α) (second : α → Phrase β) : Phrase β
  | mk {us vs : List Token} {a : α} {b : β} : first us a → second a vs b →
    Sequence first second (us ++ vs) b

inductive Marked (kind : TokenKind) (phrase : Phrase α) : Phrase α
  | mk {t : Token} {ts : List Token} {a : α} : t.kind = kind → phrase ts a →
    Marked kind phrase (t :: ts) a

def Silent (a : α) : Phrase α := fun ts b => ts = [] ∧ b = a

theorem Sequence.ending {first : Phrase α} {second : α → Phrase β} {us : List Token} {a : α}
    {b : β} (hf : first us a) (hs : second a [] b) : Sequence first second us b := by
  rw [← List.append_nil us]
  exact .mk hf hs

theorem spelled_one {t : Token} {k : TokenKind} (h : t.kind = k) : Spelled [k] [t] :=
  congrArg (fun k => [k]) h

theorem spelled_cons {t : Token} {ts : List Token} {k : TokenKind} {ks : List TokenKind}
    (ht : t.kind = k) (hs : Spelled ks ts) : Spelled (k :: ks) (t :: ts) := by
  rw [Spelled, List.map_cons, ht, hs]

theorem spelled_two {t u : Token} {k l : TokenKind} (ht : t.kind = k) (hu : u.kind = l) :
    Spelled [k, l] [t, u] :=
  spelled_cons ht (spelled_one hu)

theorem Spelled.one {ts : List Token} {k : TokenKind} (h : Spelled [k] ts) :
    ∃ t, ts = [t] ∧ t.kind = k :=
  List.map_eq_singleton_iff.1 h

theorem Spelled.uncons {ts : List Token} {k : TokenKind} {ks : List TokenKind}
    (h : Spelled (k :: ks) ts) : ∃ t us, ts = t :: us ∧ t.kind = k ∧ Spelled ks us :=
  List.map_eq_cons_iff.1 h

theorem Spelled.marked {w ts : List Token} {k : TokenKind} {phrase : Phrase α} {a : α}
    (hw : Spelled [k] w) (h : phrase ts a) : Marked k phrase (w ++ ts) a := by
  obtain ⟨t, rfl, ht⟩ := hw.one
  exact .mk ht h

theorem Spelled.marked_two {w ts : List Token} {k l : TokenKind} {phrase : Phrase α} {a : α}
    (hw : Spelled [k, l] w) (h : phrase ts a) :
    Marked k (Marked l phrase) (w ++ ts) a := by
  obtain ⟨t, us, rfl, ht, hus⟩ := hw.uncons
  exact .mk ht (hus.marked h)

theorem Spelled.clear {w rest : List Token} {k : TokenKind} {ks blocked : List TokenKind}
    (hw : Spelled (k :: ks) w) (hk : k ∉ blocked) : Clear blocked (w ++ rest) := by
  obtain ⟨t, us, rfl, ht, _⟩ := hw.uncons
  exact .cons (ht ▸ hk)

theorem Marked.clear {k : TokenKind} {phrase : Phrase α} {ts rest : List Token} {a : α}
    {blocked : List TokenKind} (h : Marked k phrase ts a) (hk : k ∉ blocked) :
    Clear blocked (ts ++ rest) := by
  obtain ⟨ht, _⟩ := h
  exact .cons (ht ▸ hk)

theorem clear_of_either {k : TokenKind} {phrase : Phrase α} {ts rest : List Token} {a : α}
    {blocked : List TokenKind} {other : Prop} (h : Marked k phrase ts a ∨ other)
    (hk : k ∉ blocked) (ho : other → Clear blocked (ts ++ rest)) : Clear blocked (ts ++ rest) :=
  h.elim (fun h => h.clear hk) ho

theorem clear_of_optional {k : TokenKind} {phrase : Phrase α} {ts rest : List Token} {a b : α}
    {blocked : List TokenKind} (h : Marked k phrase ts b ∨ Silent a ts b) (hk : k ∉ blocked)
    (hr : Clear blocked rest) : Clear blocked (ts ++ rest) :=
  clear_of_either h hk fun ⟨hn, _⟩ => hn ▸ hr

end Grammar

open Grammar

variable {α β : Type}

/-- A parser takes exactly the tokens of a phrase off the front. Where a phrase could go on it does,
so what follows has to be clear of the kinds in `stops`. -/
structure Reads (p : Parser α) (phrase : Phrase α) (stops : List TokenKind) : Prop where
  sound : ∀ {ts rest : List Token} {a : α}, (∀ t ∈ ts, t.Lexed) → p ts = .ok a rest →
    ∃ used, ts = used ++ rest ∧ phrase used a
  complete : ∀ {used rest : List Token} {a : α}, phrase used a → Clear stops rest →
    p (used ++ rest) = .ok a rest

namespace Parser

theorem bind_eq_ok {p : Parser α} {f : α → Parser β} {ts rest : List Token} {b : β}
    (h : (p >>= f) ts = .ok b rest) : ∃ a mid, p ts = .ok a mid ∧ f a mid = .ok b rest := by
  change EStateM.bind p f ts = .ok b rest at h
  unfold EStateM.bind at h
  cases hp : p ts with
  | ok a mid =>
    rw [hp] at h
    exact ⟨a, mid, rfl, h⟩
  | error e mid =>
    rw [hp] at h
    cases h

theorem bind_of_ok {p : Parser α} {f : α → Parser β} {ts mid : List Token} {a : α}
    (h : p ts = .ok a mid) : (p >>= f) ts = f a mid := by
  change EStateM.bind p f ts = f a mid
  rw [EStateM.bind, h]

theorem bind_of_error {p : Parser α} {f : α → Parser β} {ts rest : List Token} {e : ParseError}
    (h : p ts = .error e rest) : (p >>= f) ts = .error e rest := by
  change EStateM.bind p f ts = _
  rw [EStateM.bind, h]

theorem pure_eq_ok {a b : α} {ts rest : List Token} (h : (pure a : Parser α) ts = .ok b rest) :
    b = a ∧ ts = rest := by
  cases h
  exact ⟨rfl, rfl⟩

theorem sees_cons {k : TokenKind} (hk : k.Exact) {t : Token} (ht : t.kind = k) (ts : List Token) :
    sees k (t :: ts) = .ok true (t :: ts) := by
  rw [sees, List.head?_cons, Option.any_some, (hk _).2 ht]

theorem sees_clear {k : TokenKind} (hk : k.Exact) {ts : List Token} (h : Clear [k] ts) :
    sees k ts = .ok false ts := by
  rw [sees]
  cases hh : ts.head? with
  | none => rfl
  | some t =>
    have ht : ¬ t.kind.meets k = true := fun hm => h t hh (List.mem_singleton.2 ((hk _).1 hm))
    rw [Option.any_some, Bool.eq_false_iff.2 ht]

theorem skip_cons {k : TokenKind} (hk : k.Exact) {t : Token} (ht : t.kind = k) (ts : List Token) :
    skip k (t :: ts) = .ok true ts := by
  rw [skip, bind_of_ok (sees_cons hk ht ts)]
  rfl

theorem skip_clear {k : TokenKind} (hk : k.Exact) {ts : List Token} (h : Clear [k] ts) :
    skip k ts = .ok false ts := by
  rw [skip, bind_of_ok (sees_clear hk h)]
  rfl

theorem skip_eq_ok {k : TokenKind} (hk : k.Exact) {ts rest : List Token} {b : Bool}
    (h : skip k ts = .ok b rest) :
    (b = true ∧ ∃ t, ts = t :: rest ∧ t.kind = k) ∨ (b = false ∧ ts = rest ∧ Clear [k] ts) := by
  rcases clear_or_cons k ts with hc | ⟨t, us, rfl, ht⟩
  · rw [skip_clear hk hc] at h
    cases h
    exact .inr ⟨rfl, rfl, hc⟩
  · rw [skip_cons hk ht] at h
    cases h
    exact .inl ⟨rfl, t, rfl, ht⟩

theorem expect_cons {k : TokenKind} (hk : k.Exact) {t : Token} (ht : t.kind = k)
    (ts : List Token) : expect k (t :: ts) = .ok t ts := by
  have hc : current (t :: ts) = .ok (some t) (t :: ts) := rfl
  rw [expect, bind_of_ok hc]
  dsimp only
  rw [if_pos ((hk _).2 ht)]
  rfl

theorem expect_eq_ok {k : TokenKind} (hk : k.Exact) {ts rest : List Token} {t : Token}
    (h : expect k ts = .ok t rest) : ts = t :: rest ∧ t.kind = k := by
  cases ts with
  | nil => cases h
  | cons u us =>
    have hc : current (u :: us) = .ok (some u) (u :: us) := rfl
    rw [expect, bind_of_ok hc] at h
    dsimp only at h
    by_cases hm : u.kind.meets k = true
    · rw [if_pos hm] at h
      cases h
      exact ⟨rfl, (hk _).1 hm⟩
    · rw [if_neg hm] at h
      split at h <;> cases h

end Parser

namespace Reads

open DocBase.Sql.Parser

variable {p : Parser α} {f : α → Parser β} {P : Phrase α} {Q : α → Phrase β}
  {stops more : List TokenKind}

theorem mono {P' : Phrase α} (h : Reads p P stops) (forth : ∀ {ts a}, P ts a → P' ts a)
    (back : ∀ {ts a}, P' ts a → P ts a) : Reads p P' stops where
  sound hl he := by
    obtain ⟨used, rfl, hu⟩ := h.sound hl he
    exact ⟨used, rfl, forth hu⟩
  complete hu hc := h.complete (back hu) hc

theorem weaken (h : Reads p P stops) (more : List TokenKind) (hs : stops ⊆ more) :
    Reads p P more where
  sound := h.sound
  complete hu hc := h.complete hu (hc.weaken hs)

theorem free (h : Reads p P []) : Reads p P stops :=
  h.weaken stops (List.nil_subset stops)

theorem pure (a : α) : Reads (pure a) (Silent a) [] where
  sound _ he := by
    obtain ⟨rfl, rfl⟩ := pure_eq_ok he
    exact ⟨[], rfl, rfl, rfl⟩
  complete hu _ := by
    obtain ⟨rfl, rfl⟩ := hu
    rfl

theorem fail (e : ParseError) : Reads (throw e : Parser α) (fun _ _ => False) stops where
  sound _ he := nomatch he
  complete hu _ := hu.elim

theorem bind (hp : Reads p P stops) (hf : ∀ a, Reads (f a) (Q a) more)
    (hc : ∀ {a vs b rest}, Q a vs b → Clear more rest → Clear stops (vs ++ rest)) :
    Reads (p >>= f) (Sequence P Q) more where
  sound hl he := by
    obtain ⟨a, mid, ha, hb⟩ := bind_eq_ok he
    obtain ⟨us, rfl, hu⟩ := hp.sound hl ha
    obtain ⟨vs, rfl, hv⟩ := (hf a).sound (fun t ht => hl t (List.mem_append_right us ht)) hb
    exact ⟨us ++ vs, (List.append_assoc us vs _).symm, .mk hu hv⟩
  complete hu hr := by
    obtain ⟨hu, hv⟩ := hu
    rw [List.append_assoc, bind_of_ok (hp.complete hu (hc hv hr))]
    exact (hf _).complete hv hr

theorem andThen (hp : Reads p P []) (hf : ∀ a, Reads (f a) (Q a) more) :
    Reads (p >>= f) (Sequence P Q) more :=
  hp.bind hf fun _ _ => .none _

theorem map (hp : Reads p P stops) (g : α → β) :
    Reads (do return g (← p)) (fun ts b => ∃ a, P ts a ∧ b = g a) stops where
  sound hl he := by
    obtain ⟨a, mid, ha, hb⟩ := bind_eq_ok he
    obtain ⟨rfl, rfl⟩ := pure_eq_ok hb
    obtain ⟨us, rfl, hu⟩ := hp.sound hl ha
    exact ⟨us, rfl, a, hu, rfl⟩
  complete hu hr := by
    obtain ⟨a, hu, rfl⟩ := hu
    rw [bind_of_ok (hp.complete hu hr)]
    rfl

theorem functor (hp : Reads p P stops) (g : α → β) :
    Reads (g <$> p) (fun ts b => ∃ a, P ts a ∧ b = g a) stops := by
  rw [map_eq_pure_bind]
  exact hp.map g

theorem expect {q : Parser β} {k : TokenKind} {R : Phrase β} (hk : k.Exact)
    (hq : Reads q R stops) : Reads (do let _ ← expect k; q) (Marked k R) stops where
  sound hl he := by
    obtain ⟨t, mid, ht, hb⟩ := bind_eq_ok he
    obtain ⟨rfl, hkind⟩ := expect_eq_ok hk ht
    obtain ⟨us, rfl, hu⟩ := hq.sound (fun t ht => hl t (.tail _ ht)) hb
    exact ⟨t :: us, rfl, .mk hkind hu⟩
  complete hu hr := by
    obtain ⟨hkind, hu⟩ := hu
    rw [List.cons_append, bind_of_ok (expect_cons hk hkind _)]
    exact hq.complete hu hr

theorem skip {k : TokenKind} (hk : k.Exact) :
    Reads (Parser.skip k) (fun ts b => b = true ∧ Spelled [k] ts ∨ b = false ∧ ts = []) [k] where
  sound _ he := by
    rcases skip_eq_ok hk he with ⟨rfl, t, rfl, ht⟩ | ⟨rfl, rfl, _⟩
    · exact ⟨[t], rfl, .inl ⟨rfl, spelled_one ht⟩⟩
    · exact ⟨[], rfl, .inr ⟨rfl, rfl⟩⟩
  complete hu hr := by
    rcases hu with ⟨rfl, hs⟩ | ⟨rfl, rfl⟩
    · obtain ⟨t, rfl, ht⟩ := hs.one
      exact skip_cons hk ht _
    · exact skip_clear hk hr

theorem skipElse {q : Parser α} {k : TokenKind} {R : Phrase α} (hk : k.Exact)
    (hp : Reads p P stops) (hq : Reads q R stops)
    (hc : ∀ {vs a rest}, R vs a → Clear stops rest → Clear [k] (vs ++ rest)) :
    Reads (do if ← Parser.skip k then p else q) (fun ts a => Marked k P ts a ∨ R ts a) stops where
  sound hl he := by
    obtain ⟨b, mid, hb, h⟩ := bind_eq_ok he
    rcases skip_eq_ok hk hb with ⟨rfl, t, rfl, ht⟩ | ⟨rfl, rfl, _⟩
    · obtain ⟨us, rfl, hu⟩ := hp.sound (fun t ht => hl t (.tail _ ht)) h
      exact ⟨t :: us, rfl, .inl (.mk ht hu)⟩
    · obtain ⟨us, rfl, hu⟩ := hq.sound hl h
      exact ⟨us, rfl, .inr hu⟩
  complete hu hr := by
    rcases hu with ⟨ht, hu⟩ | hu
    · rw [List.cons_append, bind_of_ok (skip_cons hk ht _)]
      exact hp.complete hu hr
    · rw [bind_of_ok (skip_clear hk (hc hu hr))]
      exact hq.complete hu hr

theorem optional {k : TokenKind} (hk : k.Exact) (hp : Reads p P stops) (a : α) :
    Reads (do if ← Parser.skip k then p else return a)
      (fun ts b => Marked k P ts b ∨ Silent a ts b) (k :: stops) :=
  skipElse hk (hp.weaken _ (List.subset_cons_self k stops)) (Reads.pure a).free fun hs hr => by
    obtain ⟨rfl, _⟩ := hs
    exact hr.weaken (List.cons_subset_cons k (List.nil_subset stops))

end Reads

end DocBase.Sql
