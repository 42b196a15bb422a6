import DocBase.Proofs.Sql.Places
import DocBase.Proofs.Text.Blank

namespace DocBase.Sql

open Text

theorem isWordChar_of_isBlank {c : Char} (h : isBlank c) : isWordChar c = false :=
  eq_false_of_isBlank (by decide +kernel) h

section
variable {p : Char → Bool} {more : List Char} (hp : ∀ c ∈ more, p c = false)
include hp

theorem takeWhile_append_of_all_not (cs : List Char) :
    (cs ++ more).takeWhile p = cs.takeWhile p := by
  induction cs with
  | nil =>
    cases more with
    | nil => rfl
    | cons c more => rw [List.nil_append, List.takeWhile_cons, hp c (.head _)]; rfl
  | cons c cs ih => simp only [List.cons_append, List.takeWhile_cons, ih]

theorem dropWhile_append_of_all_not (cs : List Char) :
    (cs ++ more).dropWhile p = cs.dropWhile p ++ more := by
  induction cs with
  | nil =>
    cases more with
    | nil => rfl
    | cons c more => rw [List.nil_append, List.dropWhile_cons, hp c (.head _)]; rfl
  | cons c cs ih =>
    simp only [List.cons_append, List.dropWhile_cons, ih]
    split <;> rfl

end

theorem skipLayout_blanks {bs : List Char} (h : AllBlank bs) (comment : Bool) :
    skipLayout comment bs = [] := by
  induction bs generalizing comment with
  | nil => cases comment <;> rfl
  | cons b bs ih =>
    have hbs : AllBlank bs := fun c hc => h c (.tail _ hc)
    cases comment with
    | true => exact ih hbs _
    | false => rw [skipLayout, if_pos (h b (.head _)), ih hbs]

theorem skipLayout_blanks_append {bs : List Char} (h : AllBlank bs) (cs : List Char) :
    skipLayout false (bs ++ cs) = skipLayout false cs := by
  induction bs with
  | nil => rfl
  | cons b bs ih =>
    rw [List.cons_append, skipLayout, if_pos (h b (.head _)), ih fun c hc => h c (.tail _ hc)]

theorem skipLayout_append_blanks {bs : List Char} (h : AllBlank bs) (comment : Bool)
    (cs : List Char) : skipLayout comment (cs ++ bs) =
      if skipLayout comment cs = [] then [] else skipLayout comment cs ++ bs := by
  induction cs generalizing comment with
  | nil =>
    rw [List.nil_append, skipLayout_blanks h]
    cases comment <;> rfl
  | cons c cs ih =>
    cases comment with
    | true => exact ih _
    | false =>
      have hhead : (cs ++ bs).head? = some '-' ↔ cs.head? = some '-' := by
        cases cs with
        | cons d cs => rfl
        | nil =>
          apply iff_of_false
          · intro hb
            exact h.not_mem (by decide) (List.mem_of_mem_head? hb)
          · exact Option.some_ne_none _ ∘ Eq.symm
      rw [List.cons_append, skipLayout, skipLayout]
      simp only [hhead]
      split
      · exact ih false
      · split
        · exact ih true
        · rw [if_neg (List.cons_ne_nil _ _), List.cons_append]

theorem readQuoted_of_not_mem {quote : Char} {cs : List Char} (h : quote ∉ cs) :
    readQuoted quote cs = none := by
  induction cs with
  | nil => rfl
  | cons c cs ih =>
    obtain ⟨hc, hcs⟩ := not_or.1 (mt List.mem_cons.2 h)
    rw [readQuoted.eq_def]
    dsimp only
    rw [if_neg (Ne.symm hc), ih hcs]
    rfl

theorem readQuoted_append {quote : Char} {more : List Char} (h : quote ∉ more) (cs : List Char) :
    readQuoted quote (cs ++ more) =
      (readQuoted quote cs).map fun (text, rest) => (text, rest ++ more) := by
  fun_induction readQuoted quote cs with
  | case1 => exact readQuoted_of_not_mem h
  | case2 ds ih =>
    rw [List.cons_append, List.cons_append, readQuoted.eq_def]
    simp [ih, Function.comp_def]
  | case3 d ds hd =>
    rw [List.cons_append, List.cons_append, readQuoted.eq_def]
    simp [hd]
  | case4 =>
    rw [List.cons_append, List.nil_append, readQuoted.eq_def]
    cases more with
    | nil => simp
    | cons d ds =>
      have hd : d ≠ quote := fun he => h (he ▸ .head _)
      simp [hd]
  | case5 c cs hc ih =>
    rw [List.cons_append, readQuoted.eq_def]
    simp [hc, ih, Function.comp_def]

namespace Lexeme

def before (lexeme : Lexeme) (more : List Char) : Lexeme :=
  { lexeme with rest := lexeme.rest ++ more }

theorem ofWord_append (word rest more : List Char) :
    ofWord word (rest ++ more) = (ofWord word rest).before more := by
  simp only [ofWord]
  split <;> rfl

theorem sign?_cons_append (c d : Char) (cs more : List Char) :
    sign? c (d :: (cs ++ more)) = (sign? c (d :: cs)).map (before · more) := by
  by_cases he : d = '='
  · subst he
    unfold sign?
    split <;> simp_all [before]
  · by_cases hg : d = '>'
    · subst hg
      unfold sign?
      split <;> simp_all [before]
    · unfold sign?
      split <;> simp_all [before]

theorem sign?_cons_of_ne {c d : Char} (cs : List Char) (he : d ≠ '=') (hg : d ≠ '>') :
    sign? c (d :: cs) = (sign? c []).map (before · (d :: cs)) := by
  unfold sign?
  split <;> simp_all [before]

section
variable {bs : List Char} (h : AllBlank bs)
include h

theorem sign?_append (c : Char) (cs : List Char) :
    sign? c (cs ++ bs) = (sign? c cs).map (before · bs) := by
  cases cs with
  | cons d cs => exact sign?_cons_append c d cs bs
  | nil =>
    cases bs with
    | nil => simp [before]
    | cons b bs =>
      have hb : isBlank b := h b (.head _)
      exact sign?_cons_of_ne bs (ne_of_isBlank hb (by decide)) (ne_of_isBlank hb (by decide))

theorem ofNumber_append (c : Char) (cs : List Char) :
    ofNumber c (cs ++ bs) = (ofNumber c cs).before bs := by
  have hd : ∀ b ∈ bs, b.isDigit = false := fun b hb => isDigit_of_isBlank (h b hb)
  rw [ofNumber, ofNumber, takeWhile_append_of_all_not hd, dropWhile_append_of_all_not hd]
  generalize cs.dropWhile Char.isDigit = rest
  -- A point at the end has no digit behind it, with the blanks or without.
  cases rest with
  | nil =>
    cases bs with
    | nil => rfl
    | cons b bs =>
      have hb : b ≠ '.' := ne_of_isBlank (h b (.head _)) (by decide)
      simp [before, hb]
  | cons d ds =>
    by_cases hpoint : d = '.'
    · subst hpoint
      cases ds with
      | nil =>
        cases bs with
        | nil => rfl
        | cons b bs => simp [before, hd b (.head _)]
      | cons d ds =>
        simp only [List.cons_append, takeWhile_append_of_all_not hd, dropWhile_append_of_all_not hd]
        split <;> rfl
    · simp [before, hpoint]

/-- A token is the same with blanks behind the text, which are lost with the rest of it where a
quoted text is not closed. -/
theorem exists_read_append (c : Char) (cs : List Char) :
    ∃ rest, AllBlank rest ∧ read c (cs ++ bs) = (read c cs).before rest := by
  have hw : ∀ b ∈ bs, isWordChar b = false := fun b hb => isWordChar_of_isBlank (h b hb)
  rw [read, read, sign?_append h]
  cases sign? c cs with
  | some lexeme => exact ⟨bs, h, rfl⟩
  | none =>
    dsimp only [Option.map_none]
    split
    · next hq =>
      have hquote : isBlank c = false := by
        rcases hq with rfl | rfl <;> decide
      rw [ofString, ofString, readQuoted_append (h.not_mem hquote)]
      cases readQuoted c cs with
      | none => exact ⟨[], allBlank_nil, rfl⟩
      | some found => exact ⟨bs, h, rfl⟩
    · split
      · rw [ofQuotedName, ofQuotedName, readQuoted_append (h.not_mem (by decide))]
        cases readQuoted '\x60' cs with
        | none => exact ⟨[], allBlank_nil, rfl⟩
        | some found => exact ⟨bs, h, rfl⟩
      · refine ⟨bs, h, ?_⟩
        split
        · rw [takeWhile_append_of_all_not hw, dropWhile_append_of_all_not hw, ofWord_append]
        · split
          · exact ofNumber_append h c cs
          · rfl

end

end Lexeme

theorem exists_tokensFrom_of_nil {cs : List Char} (h : skipLayout false cs = []) (p : Position) :
    ∃ q, tokensFrom p cs = [⟨.endOfText, "", q⟩] := by
  rw [tokensFrom]
  split
  · exact ⟨_, rfl⟩
  · next hc => cases hc.symm.trans h

theorem exists_tokensFrom_of_cons {cs rest : List Char} {c : Char}
    (h : skipLayout false cs = c :: rest) (p : Position) :
    ∃ q q', tokensFrom p cs = ⟨(Lexeme.read c rest).kind, (Lexeme.read c rest).literal, q⟩ ::
      tokensFrom q' (Lexeme.read c rest).rest := by
  rw [tokensFrom]
  split
  · next hn => cases hn.symm.trans h
  · next hc =>
    cases hc.symm.trans h
    exact ⟨_, _, rfl⟩

theorem alike_tokensFrom_append {bs : List Char} (h : AllBlank bs) (p q : Position)
    (cs : List Char) : AllAlike (tokensFrom p cs) (tokensFrom q (cs ++ bs)) := by
  fun_induction tokensFrom p cs generalizing bs q with
  | case1 p cs p' =>
    rename_i hn
    have hs : skipLayout false (cs ++ bs) = [] := by
      rw [skipLayout_append_blanks h, if_pos hn]
    obtain ⟨_, he⟩ := exists_tokensFrom_of_nil hs q
    rw [he]
    exact .cons ⟨rfl, rfl⟩ .nil
  | case2 p cs p' c rest hn lexeme =>
    rename_i ih
    have hs : skipLayout false (cs ++ bs) = c :: (rest ++ bs) := by
      rw [skipLayout_append_blanks h, hn, if_neg (List.cons_ne_nil _ _), List.cons_append]
    obtain ⟨more, hm, hr⟩ := Lexeme.exists_read_append h c rest
    obtain ⟨_, q', he⟩ := exists_tokensFrom_of_cons hs q
    rw [he, hr]
    exact .cons ⟨rfl, rfl⟩ (ih hm q')

theorem alike_tokensFrom (p q : Position) (cs : List Char) :
    AllAlike (tokensFrom p cs) (tokensFrom q cs) := by
  have h := alike_tokensFrom_append allBlank_nil p q cs
  rwa [List.append_nil] at h

theorem alike_blanks_append {bs : List Char} (h : AllBlank bs) (p q : Position)
    (cs : List Char) : AllAlike (tokensFrom p cs) (tokensFrom q (bs ++ cs)) := by
  have hs := skipLayout_blanks_append h cs
  cases hc : skipLayout false cs with
  | nil =>
    obtain ⟨_, he⟩ := exists_tokensFrom_of_nil hc p
    obtain ⟨_, he'⟩ := exists_tokensFrom_of_nil (hs.trans hc) q
    rw [he, he']
    exact .cons ⟨rfl, rfl⟩ .nil
  | cons c rest =>
    obtain ⟨_, _, he⟩ := exists_tokensFrom_of_cons hc p
    obtain ⟨_, _, he'⟩ := exists_tokensFrom_of_cons (hs.trans hc) q
    rw [he, he']
    exact .cons ⟨rfl, rfl⟩ (alike_tokensFrom _ _ _)

theorem alike_tokens_trim (cs : List Char) :
    AllAlike (tokens (.ofList (trim cs))) (tokens (.ofList cs)) := by
  obtain ⟨front, back, hf, hb, he⟩ := framed_trim cs
  have hback := alike_tokensFrom_append hb .start .start (trim cs)
  have hfront := alike_blanks_append hf .start .start (trim cs ++ back)
  rw [← he] at hfront
  rw [tokens, tokens, String.toList_ofList, String.toList_ofList]
  exact hback.trans hfront

end DocBase.Sql
