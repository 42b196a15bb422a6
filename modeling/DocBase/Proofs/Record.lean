import DocBase.Proofs.Numeral
import DocBase.Record

namespace DocBase

namespace IdSource

theorem hexValue_padded (width n : Nat) : hexValue (padded width n) = n := by
  have hz (k : Nat) (cs : List Char) : hexValue (List.replicate k '0' ++ cs) = hexValue cs := by
    induction k with
    | zero => rfl
    | succ k ih => exact ih
  rw [padded, hz, hexValue_toDigits]

theorem idAt_inj {source : IdSource} {m n : Nat} (h : source.idAt m = source.idAt n) : m = n := by
  have hl := List.append_cancel_left (String.ofList_injective (RecordId.mk.inj h))
  have hp : padded 12 m = padded 12 n := List.tail_eq_of_cons_eq hl
  rw [← hexValue_padded 12 m, hp, hexValue_padded]

end IdSource

end DocBase
