import DocBase.ColumnType
import DocBase.Proofs.Sql.Segments
import DocBase.Proofs.Text.Casing

namespace DocBase.Sql

open Text

variable {α : Type}

def Writes (word spelling : String) : Prop := Respells word.toList spelling.toList

def SameButCase (word spelling : String) : Prop := equalsIgnoringCase word spelling

/-- What a word stands for, by a table of meanings and their spellings: the meaning of which it is a
spelling in the sense of `is`, and if it is none, what words stand for otherwise. -/
structure Resolves (is : String → String → Prop) (table : List (α × List String)) (word : String)
    (otherwise meaning : α) : Prop where
  listed : ∀ entry ∈ table, meaning = entry.1 ↔ ∃ spelling ∈ entry.2, is word spelling
  unlisted : (∀ entry ∈ table, ∀ spelling ∈ entry.2, ¬ is word spelling) → meaning = otherwise

/-- A table in capitals in which no meaning and no spelling occurs in two entries. -/
structure Unambiguous (table : List (α × List String)) : Prop where
  capital : ∀ entry ∈ table, ∀ spelling ∈ entry.2, IsCapital spelling.toList
  meaning : ∀ e ∈ table, ∀ e' ∈ table, e.1 = e'.1 → e = e'
  spelling : ∀ e ∈ table, ∀ e' ∈ table, ∀ s ∈ e.2, s ∈ e'.2 → e = e'

section
variable {table : List (α × List String)} {word spelling : String} {otherwise meaning : α}

theorem writes_iff (hs : IsCapital spelling.toList) :
    Writes word spelling ↔ capitalize word = spelling := by
  rw [Writes, respells_iff hs, capitalize]
  constructor
  · intro h
    rw [h, String.ofList_toList]
  · intro h
    rw [← h, String.toList_ofList]

theorem sameButCase_iff (word : String) (hs : IsCapital spelling.toList) :
    SameButCase word spelling ↔
      Writes word spelling ∧ ∀ c ∈ word.toList, c ∉ foreignLetters := by
  rw [SameButCase, equalsIgnoringCase, beq_iff_eq]
  exact map_toLower_eq_iff hs

/-- Looking a word up in capitals resolves it to what it writes. -/
theorem resolves_find? (word : String) (h : Unambiguous table)
    (ho : ∀ entry ∈ table, otherwise ≠ entry.1) :
    Resolves Writes table word otherwise
      ((table.find? fun entry => entry.2.contains (capitalize word)).elim otherwise Prod.fst) := by
  cases hf : table.find? fun entry => entry.2.contains (capitalize word) with
  | none =>
    have hnone : ∀ entry ∈ table, ∀ spelling ∈ entry.2, ¬ Writes word spelling := by
      intro entry he spelling hs hw
      rw [writes_iff (h.capital entry he spelling hs)] at hw
      have hn := List.find?_eq_none.1 hf entry he
      rw [List.contains_iff_mem, hw] at hn
      exact hn hs
    refine ⟨fun entry he => ⟨fun hm => absurd hm (ho entry he), ?_⟩, fun _ => rfl⟩
    rintro ⟨spelling, hs, hw⟩
    exact absurd hw (hnone entry he spelling hs)
  | some found =>
    have hm : found ∈ table := List.mem_of_find?_eq_some hf
    have hc : found.2.contains (capitalize word) := List.find?_eq_some_iff_append.1 hf |>.1
    rw [List.contains_iff_mem] at hc
    have hw : Writes word (capitalize word) := (writes_iff (h.capital found hm _ hc)).2 rfl
    refine ⟨fun entry he => ⟨?_, ?_⟩, fun hn => absurd hw (hn found hm _ hc)⟩
    · intro heq
      rw [← h.meaning found hm entry he heq]
      exact ⟨_, hc, hw⟩
    · rintro ⟨spelling, hs, hs'⟩
      rw [← (writes_iff (h.capital entry he spelling hs)).1 hs'] at hs
      exact congrArg Prod.fst (h.spelling found hm entry he _ hc hs)

theorem Resolves.congr {is is' : String → String → Prop}
    (hr : Resolves is table word otherwise meaning)
    (h : ∀ entry ∈ table, ∀ spelling ∈ entry.2, is word spelling ↔ is' word spelling) :
    Resolves is' table word otherwise meaning where
  listed entry he := by
    rw [hr.listed entry he]
    exact exists_congr fun spelling => and_congr_right fun hs => h entry he spelling hs
  unlisted hn := hr.unlisted fun entry he spelling hs hi =>
    hn entry he spelling hs ((h entry he spelling hs).1 hi)

/-- The case of letters decides exactly for the words without letters from outside ASCII, and for
those that write nothing in the table. -/
theorem Resolves.by_case_iff (h : Unambiguous table)
    (ho : ∀ entry ∈ table, otherwise ≠ entry.1)
    (hr : Resolves Writes table word otherwise meaning) :
    Resolves SameButCase table word otherwise meaning ↔
      (∀ c ∈ word.toList, c ∉ foreignLetters) ∨
        ∀ entry ∈ table, ∀ spelling ∈ entry.2, ¬ Writes word spelling := by
  have hiff {entry : α × List String} (he : entry ∈ table) {spelling : String}
      (hs : spelling ∈ entry.2) := sameButCase_iff word (h.capital entry he spelling hs)
  constructor
  · intro hr'
    by_cases hf : ∀ c ∈ word.toList, c ∉ foreignLetters
    · exact .inl hf
    right
    intro entry he spelling hs hw
    have hnone := hr'.unlisted fun entry he spelling hs hi => hf ((hiff he hs).1 hi).2
    exact ho entry he (hnone.symm.trans ((hr.listed entry he).2 ⟨spelling, hs, hw⟩))
  · rintro (hf | hn)
    · exact hr.congr fun entry he spelling hs => by rw [hiff he hs, and_iff_left hf]
    · refine hr.congr fun entry he spelling hs => iff_of_false (hn entry he spelling hs) ?_
      exact fun hi => hn entry he spelling hs ((hiff he hs).1 hi).1

end

def keywordTable : List (TokenKind × List String) :=
  Keyword.all.map fun k => (.keyword k, [k.spelling])

theorem unambiguous_keywordTable : Unambiguous keywordTable where
  capital := by decide +kernel
  meaning := by decide +kernel
  spelling := by decide +kernel

theorem unambiguous_aliases : Unambiguous ColumnType.aliases where
  capital := by decide +kernel
  meaning := by decide +kernel
  spelling := by decide +kernel

theorem identifier_not_listed (name : String) :
    ∀ entry ∈ keywordTable, TokenKind.identifier name ≠ entry.1 := by
  intro entry he
  obtain ⟨k, -, rfl⟩ := List.mem_map.1 he
  exact nofun

theorem other_not_listed (name : String) :
    ∀ entry ∈ ColumnType.aliases, ColumnType.other name ≠ entry.1 := by
  simp [ColumnType.aliases]

theorem resolves_ofWord (word : String) :
    Resolves Writes keywordTable word (.identifier word) (.ofWord word) := by
  have h := resolves_find? word unambiguous_keywordTable (identifier_not_listed word)
  have hk : keywordTable.find? (fun entry => entry.2.contains (capitalize word)) =
      (Keyword.ofWord? word).map fun k => (.keyword k, [k.spelling]) := by
    rw [keywordTable, List.find?_map, Keyword.ofWord?]
    congr 2
    funext k
    simp [eq_comm]
  rw [hk] at h
  rw [TokenKind.ofWord]
  cases hw : Keyword.ofWord? word <;> rwa [hw] at h

theorem resolves_ofName (name : String) :
    Resolves Writes ColumnType.aliases name (.other name) (.ofName name) := by
  have h := resolves_find? name unambiguous_aliases (other_not_listed name)
  rw [ColumnType.ofName]
  split
  · next hf => rwa [hf] at h
  · next hf => rwa [hf] at h

/-- A word anywhere in a text, and the name of a type, stand for what they write in capitals; and so
they stand for what they spell but for the case of letters, unless a letter from outside ASCII helps
them to write a keyword or an alias. -/
theorem reserved_by_capitals {gap rest cs : List Char} {c : Char} (before : List Char)
    (hg : Gap false gap) (hc : isLetter c) (hw : ∀ d ∈ cs, isWordChar d)
    (hr : ∀ d ∈ rest.head?, isWordChar d = false) (name : String) :
    let word := String.ofList (c :: cs)
    (∃ kind,
      tokensFrom (endPlace before) (gap ++ (c :: cs ++ rest)) =
        ⟨kind, word, placeBehind (before ++ gap)⟩ ::
          tokensFrom (endPlace (before ++ gap ++ c :: cs)) rest ∧
      Resolves Writes keywordTable word (.identifier word) kind ∧
      (Resolves SameButCase keywordTable word (.identifier word) kind ↔
        (∀ d ∈ word.toList, d ∉ foreignLetters) ∨
          ∀ entry ∈ keywordTable, ∀ spelling ∈ entry.2, ¬ Writes word spelling)) ∧
    Resolves Writes ColumnType.aliases name (.other name) (.ofName name) ∧
    (Resolves SameButCase ColumnType.aliases name (.other name) (.ofName name) ↔
      (∀ d ∈ name.toList, d ∉ foreignLetters) ∨
        ∀ entry ∈ ColumnType.aliases, ∀ spelling ∈ entry.2, ¬ Writes name spelling) := by
  intro word
  refine ⟨⟨.ofWord word, ?_, resolves_ofWord word, ?_⟩, resolves_ofName name, ?_⟩
  · exact (Cut.token hg (.word hc hw hr) (cut_tokensFrom _ rest)).tokensFrom_eq
  · exact (resolves_ofWord word).by_case_iff unambiguous_keywordTable (identifier_not_listed word)
  · exact (resolves_ofName name).by_case_iff unambiguous_aliases (other_not_listed name)

theorem reserved_by_capitals_of_mixed_case :
    (∃ kind, tokensFrom (endPlace []) "Limit 1".toList =
        ⟨kind, "Limit", ⟨1, 1⟩⟩ :: tokensFrom (endPlace "Limit".toList) " 1".toList ∧
      kind = .keyword .LIMIT) ∧
    Resolves SameButCase ColumnType.aliases "größe" (.other "größe") (.ofName "größe") := by
  have hword : "imit".toList.all isWordChar := by decide
  have hends : ∀ d ∈ " 1".toList.head?, isWordChar d = false := by
    intro d hd
    cases hd
    decide
  obtain ⟨⟨kind, ht, hk, -⟩, -, hn⟩ :=
    @reserved_by_capitals [] " 1".toList "imit".toList 'L' [] .nil (by decide)
      (List.all_eq_true.1 hword) hends "größe"
  have hlimit : Writes "Limit" "LIMIT" := (writes_iff (by decide)).2 (by decide)
  refine ⟨⟨kind, ht, (hk.listed (.keyword .LIMIT, ["LIMIT"]) (by decide)).2 ?_⟩, hn.2 (.inr ?_)⟩
  · exact ⟨_, List.mem_singleton_self _, hlimit⟩
  · intro entry he spelling hs hw
    have hnone : ∀ entry ∈ ColumnType.aliases, capitalize "größe" ∉ entry.2 := by decide +kernel
    rw [writes_iff (unambiguous_aliases.capital entry he spelling hs)] at hw
    exact hnone entry he (hw ▸ hs)

/-- A long s makes a keyword of a word, and a known type of a name, that differ from all spellings in
more than the case of their letters. -/
theorem long_s_reserved :
    (tokens "ſet").map Token.kind = [.keyword .SET, .endOfText] ∧
      (∀ k ∈ Keyword.all, ¬ SameButCase "ſet" k.spelling) ∧
      ColumnType.ofName "ſtring" = .text ∧
      ∀ entry ∈ ColumnType.aliases, ∀ spelling ∈ entry.2, ¬ SameButCase "ſtring" spelling := by
  unfold SameButCase
  decide +kernel

end DocBase.Sql
