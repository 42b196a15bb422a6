import DocBase.Proofs.Catalog
import DocBase.Proofs.Sql.Parsing
import DocBase.Proofs.Value

namespace DocBase.Sql

open Grammar

/-- Statements that put only values into tables that every order has a place for, and declare only
tables that have columns, of types that their names stand for. -/
def Statement.Sound : Statement → Prop
  | insert s => ∀ tuple ∈ s.tuples, ∀ literal ∈ tuple, literal.Ordered
  | update s => ∀ assignment ∈ s.assignments, assignment.literal.Ordered
  | create s => s.columns ≠ [] ∧ ∀ column ∈ s.columns, column.2.Named
  | select _ | delete _ | drop _ => True

namespace Grammar

theorem Listed.all {α : Type} {item : Phrase α} {P : α → Prop} (hitem : ∀ ts a, item ts a → P a)
    {ts : List Token} {as : List α} (h : Listed item ts as) : ∀ a ∈ as, P a := by
  induction h with
  | one h =>
    intro b hb
    rw [List.eq_of_mem_singleton hb]
    exact hitem _ _ h
  | more h _ _ ih =>
    intro b hb
    rcases List.mem_cons.1 hb with rfl | hb
    · exact hitem _ _ h
    · exact ih b hb

theorem Literal.ordered {ts : List Token} {v : Value} (h : Literal ts v) : v.Ordered := by
  cases h with
  | integer hm ht => exact Value.ordered_ofInt _
  | float hm ht =>
    intro he
    exact Binary64.ofDecimal_ne_nan _ _ _ (Value.float.inj he)
  | string ht => exact nofun
  | null ht => exact nofun
  | true ht => exact nofun
  | false ht => exact nofun

theorem Assigned.ordered {ts : List Token} {a : Assignment} (h : Assigned ts a) :
    a.literal.Ordered := by
  cases h with
  | mk _ _ h => exact h.ordered

theorem Item.named {ts : List Token} {item : Option (String × ColumnType)} (h : Item ts item) :
    ∀ column ∈ item, column.2.Named := by
  cases h with
  | column _ ht _ =>
    intro _ h
    cases h
    cases ht
    exact ColumnType.named_ofName _
  | constraint => exact nofun

theorem Sentence.sound {ts : List Token} {s : Statement} (h : Sentence ts s) : s.Sound := by
  cases h with
  | @create w ns is table items _ _ hi hn =>
    refine ⟨hn, ?_⟩
    intro column hc
    obtain ⟨item, hm, rfl⟩ := List.mem_filterMap.1 hc
    cases hi with
    | mk _ hl _ => exact hl.all (fun _ _ h => h.named) _ hm _ rfl
  | insert _ _ _ _ ht =>
    refine ht.all ?_
    intro _ tuple h
    cases h with
    | mk _ hl _ => exact hl.all fun _ _ h => h.ordered
  | update _ _ _ ha _ => exact ha.all fun _ _ h => h.ordered
  | select => trivial
  | delete => trivial
  | drop => trivial

theorem Text.sound {ts : List Token} {s : Statement} (h : Text ts s) : s.Sound := by
  cases h with
  | plain h => exact h.sound
  | terminated h _ => exact h.sound

end Grammar

theorem sound_of_parse {text : String} {s : Statement} (h : parse text = .ok s) : s.Sound :=
  (derives_of_parse h).sound

end DocBase.Sql
