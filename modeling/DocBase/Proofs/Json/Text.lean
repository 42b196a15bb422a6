import DocBase.Json.Reader
import DocBase.Json.Writer
import DocBase.Proofs.Record

namespace DocBase.Json

def pieceOf (c : Char) : Piece :=
  if c.toNat < 0x20 ∧ c ∉ ['\x08', '\x0c', '\n', '\r', '\t'] then .unit c.toNat else .char c

/-- A surrogate half it is not, so a unit stands for itself whatever follows it. -/
theorem joinPieces_unit {n : Nat} (h : n < 0xD800) (pieces : List Piece) :
    joinPieces (.unit n :: pieces) = (joinPieces pieces).map (.ofNat n :: ·) := by
  have hhigh : ¬ (0xD800 ≤ n ∧ n < 0xDC00) := by omega
  have hlow : ¬ (0xDC00 ≤ n ∧ n < 0xE000) := by omega
  have hany : ¬ (0xD800 ≤ n ∧ n < 0xE000) := by omega
  cases pieces with
  | nil => simp only [joinPieces, hany, if_false]
  | cons piece pieces =>
    cases piece with
    | char c => simp only [joinPieces, hany, if_false]
    | unit low => simp only [joinPieces, hhigh, hlow, if_false]

theorem joinPieces_pieceOf (c : Char) (pieces : List Piece) :
    joinPieces (pieceOf c :: pieces) = (joinPieces pieces).map (c :: ·) := by
  rw [pieceOf]
  split
  · next h =>
    rw [joinPieces_unit (by omega), Char.ofNat_toNat]
  · rw [joinPieces]

theorem joinPieces_map_pieceOf (cs : List Char) : joinPieces (cs.map pieceOf) = some cs := by
  induction cs with
  | nil => rfl
  | cons c cs ih =>
    rw [List.map_cons, joinPieces_pieceOf, ih]
    rfl

theorem readPieces?_plain {c : Char} (hq : c ≠ '"') (hb : c ≠ '\\') (hc : ¬ c.toNat < 0x20)
    (rest : List Char) :
    readPieces? (c :: rest) = (readPieces? rest).map fun read => (.char c :: read.1, read.2) := by
  have hn : ¬ (c = '\\' ∨ c.toNat < 0x20) := not_or.2 ⟨hb, hc⟩
  rw [readPieces?.eq_def]
  split
  · next h => cases h
  · next h =>
    cases h
    exact absurd rfl hq
  · next h =>
    cases h
    exact absurd rfl hb
  · next h =>
    cases h
    exact absurd rfl hb
  · next h =>
    cases h
    rw [if_neg hn]
    cases readPieces? rest <;> rfl

theorem readPieces?_escape {e d : Char} (hu : e ≠ 'u') (he : escape? e = some d)
    (hp : pieceOf d = .char d) (rest : List Char) :
    readPieces? ('\\' :: e :: rest) =
      (readPieces? rest).map fun read => (pieceOf d :: read.1, read.2) := by
  rw [hp, readPieces?.eq_def]
  split
  · next h => cases h
  · next h => cases h
  · next h =>
    cases h
    exact absurd rfl hu
  · next h =>
    cases h
    rw [he]
    cases readPieces? rest <;> rfl
  · next hn h =>
    cases h
    exact (hn e rest rfl rfl).elim

theorem readPieces?_control {c : Char} (hc : c.toNat < 0x20) (rest : List Char) :
    readPieces? ('\\' :: 'u' :: '0' :: '0' :: Nat.digitChar (c.toNat / 16) ::
        Nat.digitChar (c.toNat % 16) :: rest) =
      (readPieces? rest).map fun read => (.unit c.toNat :: read.1, read.2) := by
  have hzero : hexDigit? '0' = some 0 := rfl
  have hhigh : hexDigit? (Nat.digitChar (c.toNat / 16)) = some (c.toNat / 16) :=
    hexDigit?_digitChar (by omega)
  have hlow : hexDigit? (Nat.digitChar (c.toNat % 16)) = some (c.toNat % 16) :=
    hexDigit?_digitChar (by omega)
  have hn : c.toNat / 16 * 16 + c.toNat % 16 = c.toNat := by omega
  rw [readPieces?, hzero, hhigh, hlow]
  cases readPieces? rest with
  | none => rfl
  | some read => simp [hn]

theorem readPieces?_escapedChar (c : Char) (rest : List Char) :
    readPieces? (escapedChar c ++ rest) =
      (readPieces? rest).map fun read => (pieceOf c :: read.1, read.2) := by
  unfold escapedChar
  split
  · exact readPieces?_escape (by decide) rfl rfl rest
  · exact readPieces?_escape (by decide) rfl rfl rest
  · exact readPieces?_escape (by decide) rfl rfl rest
  · exact readPieces?_escape (by decide) rfl rfl rest
  · exact readPieces?_escape (by decide) rfl rfl rest
  · exact readPieces?_escape (by decide) rfl rfl rest
  · exact readPieces?_escape (by decide) rfl rfl rest
  · next hq hb h8 hc hn hr ht =>
    have hm : c ∉ ['\x08', '\x0c', '\n', '\r', '\t'] := by
      simpa using ⟨h8, hc, hn, hr, ht⟩
    split
    · next hctl =>
      rw [pieceOf, if_pos ⟨hctl, hm⟩]
      exact readPieces?_control hctl rest
    · next hctl =>
      rw [pieceOf, if_neg fun h => hctl h.1]
      exact readPieces?_plain hq hb hctl rest

theorem readPieces?_flatMap (cs rest : List Char) :
    readPieces? (cs.flatMap escapedChar ++ '"' :: rest) = some (cs.map pieceOf, rest) := by
  induction cs with
  | nil => rfl
  | cons c cs ih =>
    rw [List.flatMap_cons, List.append_assoc, readPieces?_escapedChar, ih]
    rfl

end DocBase.Json
