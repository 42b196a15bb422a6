import DocBase.Sql.Token
import DocBase.Text.Blank
import DocBase.Text.Letter

namespace DocBase.Sql

/-- Drops blanks and comments off the front; the flag says whether a comment is open. -/
def skipLayout : Bool → List Char → List Char
  | _, [] => []
  | true, c :: cs => skipLayout (c != '\n') cs
  | false, c :: cs =>
    if Text.isBlank c then skipLayout false cs
    else if c = '-' ∧ cs.head? = some '-' then skipLayout true cs
    else c :: cs

/-- Reads up to the closing quote, the opening one being passed. Of the rest no part is read if the
quote is never closed. -/
def readQuoted (quote : Char) : List Char → Option (List Char × List Char)
  | [] => none
  | c :: cs =>
    if c = quote then
      match cs with
      | d :: ds =>
        if d = quote then (readQuoted quote ds).map fun (text, rest) => (quote :: text, rest)
        else some ([], cs)
      | [] => some ([], [])
    else (readQuoted quote cs).map fun (text, rest) => (c :: text, rest)

def isWordChar (c : Char) : Bool := Text.isLetter c || c.isDigit

/-- A token without its place, and the text behind it. -/
structure Lexeme where
  kind : TokenKind
  literal : String
  rest : List Char

namespace Lexeme

def ofWord (word : List Char) (rest : List Char) : Lexeme :=
  let word := String.ofList word
  match Keyword.ofWord? word with
  | some k => ⟨.keyword k, word, rest⟩
  | none => ⟨.identifier word, word, rest⟩

/-- A number that starts with the digit `c`. It has at most one point, and digits behind it. -/
def ofNumber (c : Char) (cs : List Char) : Lexeme :=
  let whole := c :: cs.takeWhile Char.isDigit
  match cs.dropWhile Char.isDigit with
  | '.' :: d :: ds =>
    if d.isDigit then
      ⟨.float, .ofList (whole ++ '.' :: d :: ds.takeWhile Char.isDigit), ds.dropWhile Char.isDigit⟩
    else ⟨.integer, .ofList whole, '.' :: d :: ds⟩
  | rest => ⟨.integer, .ofList whole, rest⟩

def ofString (quote : Char) (cs : List Char) : Lexeme :=
  match readQuoted quote cs with
  | some (text, rest) => ⟨.string (.ofList text), .ofList (quote :: text ++ [quote]), rest⟩
  | none => ⟨.illegal, "unterminated string", []⟩

def ofQuotedName (cs : List Char) : Lexeme :=
  match readQuoted '\x60' cs with
  | some (name, rest) => ⟨.identifier (.ofList name), .ofList name, rest⟩
  | none => ⟨.illegal, "unterminated identifier", []⟩

/-- The sign that starts with `c`, two characters long if it can be. -/
def sign? (c : Char) (cs : List Char) : Option Lexeme :=
  match c, cs with
  | '<', '=' :: rest => some ⟨.sign .lessEqual, "<=", rest⟩
  | '<', '>' :: rest => some ⟨.sign .notEqual, "<>", rest⟩
  | '>', '=' :: rest => some ⟨.sign .greaterEqual, ">=", rest⟩
  | '!', '=' :: rest => some ⟨.sign .notEqual, "!=", rest⟩
  | '<', rest => some ⟨.sign .less, "<", rest⟩
  | '>', rest => some ⟨.sign .greater, ">", rest⟩
  | '=', rest => some ⟨.sign .equal, "=", rest⟩
  | '-', rest => some ⟨.sign .minus, "-", rest⟩
  | '*', rest => some ⟨.sign .asterisk, "*", rest⟩
  | ';', rest => some ⟨.sign .semicolon, ";", rest⟩
  | ',', rest => some ⟨.sign .comma, ",", rest⟩
  | '(', rest => some ⟨.sign .leftParen, "(", rest⟩
  | ')', rest => some ⟨.sign .rightParen, ")", rest⟩
  | '.', rest => some ⟨.sign .dot, ".", rest⟩
  | _, _ => none

/-- The token that starts with `c`. A character that starts none is illegal by itself. -/
def read (c : Char) (cs : List Char) : Lexeme :=
  match sign? c cs with
  | some lexeme => lexeme
  | none =>
    if c = '\'' ∨ c = '"' then ofString c cs
    else if c = '\x60' then ofQuotedName cs
    else if Text.isLetter c then ofWord (c :: cs.takeWhile isWordChar) (cs.dropWhile isWordChar)
    else if c.isDigit then ofNumber c cs
    else ⟨.illegal, .ofList [c], cs⟩

end Lexeme

theorem length_skipLayout_le (comment : Bool) (cs : List Char) :
    (skipLayout comment cs).length ≤ cs.length := by
  induction cs generalizing comment with
  | nil => cases comment <;> exact Nat.le_refl _
  | cons c cs ih =>
    cases comment with
    | true => exact Nat.le_succ_of_le (ih _)
    | false =>
      simp only [skipLayout]
      split
      · exact Nat.le_succ_of_le (ih _)
      · split
        · exact Nat.le_succ_of_le (ih _)
        · exact Nat.le_refl _

theorem length_le_of_readQuoted {quote : Char} {cs text rest : List Char}
    (h : readQuoted quote cs = some (text, rest)) : rest.length ≤ cs.length := by
  fun_induction readQuoted quote cs generalizing text rest with
  | case1 => cases h
  | case2 ds ih =>
    obtain ⟨⟨_, _⟩, hq, he⟩ := Option.map_eq_some_iff.1 h
    cases he
    exact Nat.le_succ_of_le (Nat.le_succ_of_le (ih hq))
  | case3 d ds hd =>
    cases h
    exact Nat.le_succ _
  | case4 =>
    cases h
    exact Nat.zero_le _
  | case5 c cs hc ih =>
    obtain ⟨⟨_, _⟩, hq, he⟩ := Option.map_eq_some_iff.1 h
    cases he
    exact Nat.le_succ_of_le (ih hq)

theorem length_dropWhile_le (p : Char → Bool) (cs : List Char) :
    (cs.dropWhile p).length ≤ cs.length :=
  (List.dropWhile_suffix p).length_le

namespace Lexeme

theorem rest_ofWord (word rest : List Char) : (ofWord word rest).rest = rest := by
  simp only [ofWord]
  split <;> rfl

theorem length_rest_ofNumber_le (c : Char) (cs : List Char) :
    (ofNumber c cs).rest.length ≤ cs.length := by
  have hd := length_dropWhile_le Char.isDigit cs
  simp only [ofNumber]
  split
  · next d ds he =>
    rw [he] at hd
    have hf := length_dropWhile_le Char.isDigit ds
    simp only [List.length_cons] at hd
    split
    · exact Nat.le_trans hf (by omega)
    · simpa using hd
  · exact hd

theorem length_rest_ofString_le (quote : Char) (cs : List Char) :
    (ofString quote cs).rest.length ≤ cs.length := by
  simp only [ofString]
  split
  · next h => exact length_le_of_readQuoted h
  · exact Nat.zero_le _

theorem length_rest_ofQuotedName_le (cs : List Char) :
    (ofQuotedName cs).rest.length ≤ cs.length := by
  simp only [ofQuotedName]
  split
  · next h => exact length_le_of_readQuoted h
  · exact Nat.zero_le _

theorem length_rest_le_of_sign? {c : Char} {cs : List Char} {lexeme : Lexeme}
    (h : sign? c cs = some lexeme) : lexeme.rest.length ≤ cs.length := by
  unfold sign? at h
  split at h <;> cases h <;> simp

/-- A token takes up its first character at least. -/
theorem length_rest_read_le (c : Char) (cs : List Char) :
    (read c cs).rest.length ≤ cs.length := by
  simp only [read]
  split
  · next h => exact length_rest_le_of_sign? h
  · split
    · exact length_rest_ofString_le c cs
    · split
      · exact length_rest_ofQuotedName_le cs
      · split
        · rw [rest_ofWord]
          exact length_dropWhile_le isWordChar cs
        · split
          · exact length_rest_ofNumber_le c cs
          · exact Nat.le_refl _

end Lexeme

def passed (cs rest : List Char) : List Char := cs.take (cs.length - rest.length)

/-- The tokens of a text that starts at `p`, the last one marking its end. -/
def tokensFrom (p : Position) (cs : List Char) : List Token :=
  let p := p.advance (passed cs (skipLayout false cs))
  match _h : skipLayout false cs with
  | [] => [⟨.endOfText, "", p⟩]
  | c :: rest =>
    let lexeme := Lexeme.read c rest
    ⟨lexeme.kind, lexeme.literal, p.advance [c]⟩ ::
      tokensFrom (p.advance (passed (c :: rest) lexeme.rest)) lexeme.rest
termination_by cs.length
decreasing_by
  have hl := length_skipLayout_le false cs
  have hr := Lexeme.length_rest_read_le c rest
  rw [_h, List.length_cons] at hl
  omega

def tokens (text : String) : List Token := tokensFrom .start text.toList

end DocBase.Sql
