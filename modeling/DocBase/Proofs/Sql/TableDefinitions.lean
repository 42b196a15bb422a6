import DocBase.Proofs.Sql.Queries

namespace DocBase.Sql

namespace Grammar

inductive ConstraintsUpTo : Nat → List Token → Prop
  | none {n : Nat} : ConstraintsUpTo n []
  | more {n : Nat} {ts us : List Token} : Constraint ts → ConstraintsUpTo n us →
    ConstraintsUpTo (n + 1) (ts ++ us)

theorem ConstraintsUpTo.constraints {n : Nat} {ts : List Token} (h : ConstraintsUpTo n ts) :
    Constraints ts := by
  induction h with
  | none => exact .none
  | more hc _ ih => exact .more hc ih

theorem ConstraintsUpTo.weaken {n m : Nat} {ts : List Token} (h : ConstraintsUpTo n ts)
    (hm : n ≤ m) : ConstraintsUpTo m ts := by
  induction h generalizing m with
  | none => exact .none
  | more hc _ ih =>
    cases m with
    | zero => cases hm
    | succ m => exact .more hc (ih (Nat.le_of_succ_le_succ hm))

theorem Constraint.length_pos {ts : List Token} (h : Constraint ts) : 0 < ts.length := by
  cases h with
  | notNull hs | null hs | unique hs | primaryKey hs =>
    obtain ⟨t, us, rfl, _⟩ := hs.uncons
    exact Nat.succ_pos _
  | default hs _ =>
    obtain ⟨t, rfl, _⟩ := hs.one
    exact Nat.succ_pos _

theorem Constraints.upTo {ts : List Token} (h : Constraints ts) :
    ConstraintsUpTo ts.length ts := by
  induction h with
  | none => exact .none
  | more hc _ ih =>
    have hpos := hc.length_pos
    apply (ConstraintsUpTo.more hc ih).weaken
    rw [List.length_append]
    omega

end Grammar

namespace Parser

open Grammar

abbrev columnStops : List TokenKind :=
  [.keyword .NOT, .keyword .NULL, .keyword .UNIQUE, .keyword .PRIMARY, .keyword .DEFAULT,
   .sign .leftParen]

theorem reads_columnConstraints (fuel : Nat) :
    Reads (columnConstraints fuel) (fun ts _ => ConstraintsUpTo fuel ts) columnStops := by
  induction fuel with
  | zero =>
    apply (Reads.pure ()).free.mono
    · intro _ _ h
      obtain ⟨rfl, _⟩ := h
      exact .none
    · intro _ _ h
      cases h
      exact ⟨rfl, rfl⟩
  | succ fuel ih =>
    have hd := (Reads.optional (.keyword .DEFAULT) (reads_literal.andThen fun _ => ih) ()).weaken
      columnStops (by simp)
    have hp := Reads.skipElse (.keyword .PRIMARY) (Reads.expect (.keyword .KEY) ih) hd
      fun h hr => clear_of_optional h (by simp) (hr.weaken (by simp))
    have hu := Reads.skipElse (.keyword .UNIQUE) ih hp fun h hr =>
      clear_of_either h (by simp) fun h => clear_of_optional h (by simp) (hr.weaken (by simp))
    have hn := Reads.skipElse (.keyword .NULL) ih hu fun h hr =>
      clear_of_either h (by simp) fun h => clear_of_either h (by simp) fun h =>
        clear_of_optional h (by simp) (hr.weaken (by simp))
    refine (Reads.skipElse (.keyword .NOT) (Reads.expect (.keyword .NULL) ih) hn fun h hr =>
      clear_of_either h (by simp) fun h => clear_of_either h (by simp) fun h =>
        clear_of_either h (by simp) fun h =>
          clear_of_optional h (by simp) (hr.weaken (by simp))).mono ?_ ?_
    · intro _ _ h
      rcases h with ⟨ht, hn, h⟩ | ⟨ht, h⟩ | ⟨ht, h⟩ | ⟨ht, hk, h⟩ | ⟨ht, hl, h⟩ | ⟨rfl, _⟩
      · exact .more (.notNull (spelled_two ht hn)) h
      · exact .more (.null (spelled_one ht)) h
      · exact .more (.unique (spelled_one ht)) h
      · exact .more (.primaryKey (spelled_two ht hk)) h
      · exact .more (.default (spelled_one ht) hl) h
      · exact .none
    · intro _ _ h
      cases h with
      | none => exact .inr (.inr (.inr (.inr (.inr ⟨rfl, rfl⟩))))
      | more hc h =>
        cases hc with
        | notNull hs => exact .inl (hs.marked_two h)
        | null hs => exact .inr (.inl (hs.marked h))
        | unique hs => exact .inr (.inr (.inl (hs.marked h)))
        | primaryKey hs => exact .inr (.inr (.inr (.inl (hs.marked_two h))))
        | default hs hl =>
          rw [List.append_assoc]
          exact .inr (.inr (.inr (.inr (.inl (hs.marked (.mk hl h))))))

theorem reads_size (type : ColumnType) :
    Reads (do
      if ← skip (.sign .leftParen) then
        let _ ← expect .integer
        if ← skip (.sign .comma) then
          let _ ← expect .integer
        let _ ← expect (.sign .rightParen)
      return type) (fun ts t => Size ts ∧ t = type) [.sign .leftParen] := by
  have hclose := Reads.expect (.sign .rightParen) (Reads.pure type)
  have hmore := Reads.skipElse (.sign .comma) (Reads.expect .integer hclose) hclose fun h _ =>
    h.clear (by simp)
  apply (Reads.optional (.sign .leftParen) (Reads.expect .integer hmore) type).mono
  · intro _ _ h
    rcases h with ⟨hl, hi, ⟨hc, hj, ⟨hr, rfl, rfl⟩⟩ | ⟨hr, rfl, rfl⟩⟩ | ⟨rfl, rfl⟩
    · exact ⟨.two (spelled_cons hl (spelled_cons hi (spelled_cons hc (spelled_two hj hr)))), rfl⟩
    · exact ⟨.one (spelled_cons hl (spelled_two hi hr)), rfl⟩
    · exact ⟨.absent, rfl⟩
  · intro _ _ h
    obtain ⟨hs, rfl⟩ := h
    cases hs with
    | absent => exact .inr ⟨rfl, rfl⟩
    | one hs =>
      obtain ⟨l, _, rfl, hl, hs⟩ := hs.uncons
      obtain ⟨i, _, rfl, hi, hs⟩ := hs.uncons
      obtain ⟨r, rfl, hr⟩ := hs.one
      exact .inl (.mk hl (.mk hi (.inr (.mk hr ⟨rfl, rfl⟩))))
    | two hs =>
      obtain ⟨l, _, rfl, hl, hs⟩ := hs.uncons
      obtain ⟨i, _, rfl, hi, hs⟩ := hs.uncons
      obtain ⟨c, _, rfl, hc, hs⟩ := hs.uncons
      obtain ⟨j, _, rfl, hj, hs⟩ := hs.uncons
      obtain ⟨r, rfl, hr⟩ := hs.one
      exact .inl (.mk hl (.mk hi (.inl (.mk hc (.mk hj (.mk hr ⟨rfl, rfl⟩))))))

theorem reads_columnType : Reads columnType Typed [.sign .leftParen] where
  sound {ts} rest type hl h := by
    rw [columnType, current_bind] at h
    cases ts with
    | nil => cases h
    | cons t us =>
      dsimp only [List.head?_cons] at h
      cases hk : t.kind with
      | identifier name =>
        rw [hk] at h
        obtain ⟨used, rfl, hs, rfl⟩ :=
          (reads_size (.ofName name)).sound (fun t ht => hl t (.tail _ ht)) h
        exact ⟨[t] ++ used, rfl, .mk (.mk hk) hs⟩
      | _ =>
        rw [hk] at h
        cases h
  complete h hr := by
    obtain ⟨⟨hk⟩, hs⟩ := h
    rw [columnType, current_bind]
    dsimp only [List.head?_cons, List.cons_append]
    rw [hk]
    exact (reads_size (.ofName _)).complete ⟨hs, rfl⟩ hr

theorem reads_constraints {α : Type} (a : α) :
    Reads (do columnConstraints (← get).length; return a)
      (fun ts b => Constraints ts ∧ b = a) columnStops where
  sound {ts} rest b hl h := by
    change (columnConstraints ts.length >>= fun _ => pure a) ts = _ at h
    obtain ⟨_, mid, hc, h₁⟩ := bind_eq_ok h
    obtain ⟨rfl, rfl⟩ := pure_eq_ok h₁
    obtain ⟨used, rfl, hu⟩ := (reads_columnConstraints ts.length).sound hl hc
    exact ⟨used, rfl, hu.constraints, rfl⟩
  complete {used rest _} h hr := by
    obtain ⟨hc, rfl⟩ := h
    have hlen : used.length ≤ (used ++ rest).length := by simp
    have hu : columnConstraints (used ++ rest).length (used ++ rest) = .ok () rest :=
      (reads_columnConstraints _).complete (hc.upTo.weaken hlen) hr
    change (columnConstraints (used ++ rest).length >>= fun _ => pure _) (used ++ rest) = _
    rw [bind_of_ok hu]
    rfl

theorem clear_of_constraints {ts rest : List Token} (h : Constraints ts)
    (hr : Clear [.sign .leftParen] rest) : Clear [.sign .leftParen] (ts ++ rest) := by
  cases h with
  | none => exact hr
  | more hc _ =>
    rw [List.append_assoc]
    cases hc with
    | notNull hs | null hs | unique hs | primaryKey hs => exact hs.clear (by simp)
    | default hs _ =>
      rw [List.append_assoc]
      exact hs.clear (by simp)

theorem reads_columnDefinition : Reads columnDefinition
    (fun ts column => Item ts (some column)) columnStops := by
  have ht (name : String) := reads_columnType.bind
    (fun type => reads_constraints (name, type)) fun ⟨hc, _⟩ hr =>
      clear_of_constraints hc (hr.weaken (by simp))
  apply (reads_identifier.andThen ht).mono
  · intro _ _ h
    obtain ⟨hn, ht, hc, rfl⟩ := h
    exact .column hn ht hc
  · intro _ _ h
    cases h with
    | column hn ht hc => exact .mk hn (.mk ht ⟨hc, rfl⟩)

theorem reads_tableItem : Reads tableItem Item columnStops := by
  have hp {α : Type} (a : α) := (reads_parenthesized reads_identifier (by simp) (by simp)).andThen
    fun _ => (Reads.pure a).weaken columnStops (by simp)
  have hu := Reads.skipElse (.keyword .UNIQUE) (hp none) (reads_columnDefinition.map some)
    fun ⟨_, h, _⟩ _ => by
      cases h with
      | column hn _ _ =>
        rw [List.append_assoc]
        exact clear_of_name hn (by simp)
  refine (Reads.skipElse (.keyword .PRIMARY) (Reads.expect (.keyword .KEY) (hp none)) hu ?_).mono
    ?_ ?_
  · intro vs item rest h _
    apply clear_of_either h (by simp)
    intro h
    obtain ⟨_, ⟨hn, _, _⟩, _⟩ := h
    rw [List.append_assoc]
    exact clear_of_name hn (by simp)
  · intro _ _ h
    rcases h with ⟨hp, hk, hns, rfl, rfl⟩ | ⟨hu, hns, rfl, rfl⟩ | ⟨_, h, rfl⟩
    · rw [List.append_nil]
      exact .constraint (.primaryKey (spelled_two hp hk)) hns
    · rw [List.append_nil]
      exact .constraint (.unique (spelled_one hu)) hns
    · exact h
  · intro _ _ h
    cases h with
    | column hn ht hc => exact .inr (.inr ⟨_, .column hn ht hc, rfl⟩)
    | constraint hw hns =>
      cases hw with
      | primaryKey hs => exact .inl (hs.marked_two (.ending hns ⟨rfl, rfl⟩))
      | unique hs => exact .inr (.inl (hs.marked (.ending hns ⟨rfl, rfl⟩)))

/-- Items of which one at least is a column. -/
def Columned : Phrase (List (String × ColumnType)) := fun ts columns =>
  ∃ items, Listed Item ts items ∧ items.filterMap id ≠ [] ∧ columns = items.filterMap id

theorem reads_tableColumns : Reads tableColumns Columned (.sign .comma :: columnStops) where
  sound hl h := by
    obtain ⟨items, mid, hi, h₁⟩ := bind_eq_ok h
    obtain ⟨used, rfl, hu⟩ := (reads_commaList reads_tableItem (by simp)).sound hl hi
    dsimp only at h₁
    by_cases he : (items.filterMap id).isEmpty = true
    · rw [if_pos he] at h₁
      cases h₁
    · rw [if_neg he] at h₁
      cases h₁
      exact ⟨used, rfl, items, hu, fun hn => he (List.isEmpty_iff.2 hn), rfl⟩
  complete h hr := by
    obtain ⟨items, hi, hne, rfl⟩ := h
    rw [tableColumns, bind_of_ok ((reads_commaList reads_tableItem (by simp)).complete hi hr)]
    dsimp only
    rw [if_neg fun he => hne (List.isEmpty_iff.1 he)]
    rfl

theorem reads_create : Reads create (fun ts s => Sentence ts (.create s)) [] := by
  have hc (table : String) (columns : List (String × ColumnType)) :=
    Reads.expect (.sign .rightParen) (Reads.pure (⟨table, columns⟩ : Create))
  have hi (table : String) := Reads.expect (.sign .leftParen)
    (reads_tableColumns.bind (hc table) fun h _ => h.clear (by simp))
  have ht := Reads.skipElse (.keyword .TABLE) (reads_identifier.andThen hi)
    (Reads.fail (.invalidSyntax "Only CREATE TABLE is supported")) fun h _ => h.elim
  apply (Reads.expect (.keyword .CREATE) ht).mono
  · intro _ _ h
    obtain ⟨hc, ⟨ht, hn, hl, ⟨_, hi, hne, rfl⟩, hr, rfl, rfl⟩ | h⟩ := h
    · exact .create (spelled_two hc ht) hn (.mk (spelled_one hl) hi (spelled_one hr)) hne
    · exact h.elim
  · intro _ _ h
    cases h with
    | create hw hn hi hne =>
      obtain ⟨c, _, rfl, hc, hs⟩ := hw.uncons
      obtain ⟨hl, hi, hr⟩ := hi
      obtain ⟨r, rfl, hk⟩ := hr.one
      refine .mk hc (.inl (hs.marked (.mk hn (hl.marked (.mk ⟨_, hi, hne, rfl⟩ ?_)))))
      exact .mk hk ⟨rfl, rfl⟩

theorem reads_drop : Reads drop (fun ts s => Sentence ts (.drop s)) [] := by
  have ht := Reads.skipElse (.keyword .TABLE) (reads_identifier.map fun table => (⟨table⟩ : Drop))
    (Reads.fail (.invalidSyntax "Only DROP TABLE is supported")) fun h _ => h.elim
  apply (Reads.expect (.keyword .DROP) ht).mono
  · intro _ _ h
    obtain ⟨hd, ⟨ht, _, hn, rfl⟩ | h⟩ := h
    · exact .drop (spelled_two hd ht) hn
    · exact h.elim
  · intro _ _ h
    cases h with
    | drop hw hn =>
      obtain ⟨d, _, rfl, hd, hs⟩ := hw.uncons
      exact .mk hd (.inl (hs.marked ⟨_, hn, rfl⟩))

end Parser

end DocBase.Sql
