import DocBase.Proofs.Json.Number
import DocBase.Proofs.Json.Text

namespace DocBase

/-- What a value is after it has been written and read: a float becomes what its numeral is read as,
and null if it has none. -/
def Value.kept : Value → Value
  | float (.finite negative rank) => float (Binary64.finite negative rank).reread
  | float _ => null
  | v => v

namespace Json

mutual

def kept : Json → Json
  | scalar v => scalar v.kept
  | meaningless => scalar .null
  | array items => array (keptEach items)
  | object members => object (keptMembers members)

def keptEach : List Json → List Json
  | [] => []
  | item :: items => kept item :: keptEach items

def keptMembers : List (String × Json) → List (String × Json)
  | [] => []
  | (key, value) :: members => (key, kept value) :: keptMembers members

end

def Opens (c : Char) : Prop := c.isDigit ∨ c ∈ ['-', '"', '[', '\x7b', 'n', 't', 'f']

theorem Opens.not_space {c : Char} (h : Opens c) : isSpace c = false := by
  rcases h with h | h
  · apply Bool.eq_false_iff.2
    intro hs
    simp only [isSpace, Bool.or_eq_true, beq_iff_eq] at hs
    rcases hs with ((rfl | rfl) | rfl) | rfl <;> cases h
  · have hall : ['-', '"', '[', '\x7b', 'n', 't', 'f'].all (isSpace · == false) := by decide
    exact eq_of_beq (List.all_eq_true.1 hall c h)

theorem Opens.ne_closing {c : Char} (h : Opens c) : c ≠ ']' ∧ c ≠ '\x7d' := by
  constructor <;>
  · intro he
    subst he
    rcases h with h | h
    · cases h
    · simp at h

theorem opens_of_readNumber? {cs : List Char} {r : Json × List Char}
    (h : readNumber? cs = some r) : ∃ c rest, cs = c :: rest ∧ (c.isDigit ∨ c = '-') := by
  cases cs with
  | nil => simp [readNumber?, Numeral.scanFraction, Numeral.scanExponent?] at h
  | cons c rest =>
    refine ⟨c, rest, rfl, ?_⟩
    by_cases hm : c = '-'
    · exact .inr hm
    by_cases hd : c.isDigit = true
    · exact .inl hd
    · have h0 : c ≠ '0' := by
        intro he
        subst he
        exact hd rfl
      simp [readNumber?, hm, h0, hd] at h

theorem skipSpace_of_opens {c : Char} (h : isSpace c = false) (cs : List Char) :
    skipSpace (c :: cs) = c :: cs := by
  rw [skipSpace, List.dropWhile_cons_of_neg (by simp [h])]

theorem skipSpace_lineBreak (style : Style) (depth : Nat) {c : Char} (h : isSpace c = false)
    (cs : List Char) : skipSpace (lineBreak style depth ++ c :: cs) = c :: cs := by
  cases style with
  | compact => exact skipSpace_of_opens h cs
  | pretty =>
    have hs : ∀ d ∈ lineBreak .pretty depth, isSpace d := by
      intro d hd
      rcases List.mem_cons.1 hd with rfl | hd
      · rfl
      · rw [List.eq_of_mem_replicate hd]
        rfl
    rw [skipSpace, List.dropWhile_append_of_pos hs]
    exact skipSpace_of_opens h cs

theorem readValue?_number {c : Char} (h : c.isDigit ∨ c = '-') (fuel : Nat) (cs : List Char) :
    readValue? (fuel + 1) (c :: cs) = readNumber? (c :: cs) := by
  rw [readValue?.eq_def]
  dsimp only
  split
  all_goals try rfl
  all_goals
    next he =>
      cases he
      rcases h with h | h <;> cases h

theorem readValue?_of_readNumber? {cs : List Char} {r : Json × List Char}
    (h : readNumber? cs = some r) (fuel : Nat) : readValue? (fuel + 1) cs = some r := by
  obtain ⟨c, rest, rfl, hc⟩ := opens_of_readNumber? h
  rw [readValue?_number hc, h]

theorem readValue?_writeString (fuel : Nat) (s : String) (rest : List Char) :
    readValue? (fuel + 1) (writeString s ++ rest) = some (scalar (.text s), rest) := by
  have hp := readPieces?_flatMap s.toList rest
  have hassoc : writeString s ++ rest = '"' :: (s.toList.flatMap escapedChar ++ '"' :: rest) := by
    simp [writeString]
  rw [hassoc, readValue?, hp]
  simp [ofPieces, joinPieces_map_pieceOf]

theorem readValue?_null (fuel : Nat) (rest : List Char) :
    readValue? (fuel + 1) ("null".toList ++ rest) = some (scalar .null, rest) := rfl

theorem readValue?_writeScalar (fuel : Nat) (v : Value) {rest : List Char} (hr : NumberEnds rest) :
    readValue? (fuel + 1) (writeScalar v ++ rest) = some (scalar v.kept, rest) := by
  cases v with
  | null => exact readValue?_null fuel rest
  | boolean b => cases b <;> rfl
  | integer i => exact readValue?_of_readNumber? (readNumber?_integer i hr) fuel
  | float f =>
    cases f with
    | finite negative rank =>
      exact readValue?_of_readNumber? (readNumber?_finite negative rank hr) fuel
    | _ => exact readValue?_null fuel rest
  | text s => exact readValue?_writeString fuel s rest

theorem opens_writeScalar (v : Value) : ∃ c cs, writeScalar v = c :: cs ∧ Opens c := by
  have hnumber {cs : List Char} {r : Json × List Char} (h : readNumber? (cs ++ []) = some r) :
      ∃ c rest, cs = c :: rest ∧ Opens c := by
    rw [List.append_nil] at h
    obtain ⟨c, rest, rfl, hc⟩ := opens_of_readNumber? h
    refine ⟨c, rest, rfl, hc.imp_right ?_⟩
    intro hm
    simp [hm]
  have hnull : ∃ c cs, "null".toList = c :: cs ∧ Opens c := ⟨'n', _, rfl, .inr (by decide)⟩
  have hends : NumberEnds [] := by
    intro _ hc
    cases hc
  cases v with
  | null => exact hnull
  | boolean b =>
    cases b with
    | false => exact ⟨'f', _, rfl, .inr (by decide)⟩
    | true => exact ⟨'t', _, rfl, .inr (by decide)⟩
  | integer i => exact hnumber (readNumber?_integer i hends)
  | float f =>
    cases f with
    | finite negative rank => exact hnumber (readNumber?_finite negative rank hends)
    | _ => exact hnull
  | text s => exact ⟨'"', _, rfl, .inr (by decide)⟩

theorem opens_writeAt (style : Style) (depth : Nat) (document : Json) :
    ∃ c cs, writeAt style depth document = c :: cs ∧ Opens c := by
  have hitems {opening closing : Char} (items : List (List Char)) (ho : Opens opening) :
      ∃ c cs, writeItems style depth opening closing items = c :: cs ∧ Opens c := by
    cases items with
    | nil => exact ⟨opening, _, rfl, ho⟩
    | cons first rest => exact ⟨opening, _, rfl, ho⟩
  cases document with
  | scalar v => exact opens_writeScalar v
  | meaningless => exact ⟨'n', _, rfl, .inr (by decide)⟩
  | array items => exact hitems _ (.inr (by decide))
  | object members => exact hitems _ (.inr (by decide))

/-- What stands behind the first of some items: the others and the closing bracket. -/
def writeTail (style : Style) (depth : Nat) (closing : Char) (texts : List (List Char)) :
    List Char :=
  (texts.flatMap fun text => ',' :: (lineBreak style (depth + 1) ++ text)) ++
    (lineBreak style depth ++ [closing])

theorem writeItems_cons (style : Style) (depth : Nat) (opening closing : Char) (text : List Char)
    (texts : List (List Char)) : writeItems style depth opening closing (text :: texts) =
      opening :: (lineBreak style (depth + 1) ++ (text ++ writeTail style depth closing texts)) := by
  simp [writeItems, writeTail]

theorem writeTail_cons (style : Style) (depth : Nat) (closing : Char) (text : List Char)
    (texts : List (List Char)) : writeTail style depth closing (text :: texts) =
      ',' :: (lineBreak style (depth + 1) ++ (text ++ writeTail style depth closing texts)) := by
  simp [writeTail]

theorem numberEnds_writeTail (style : Style) (depth : Nat) {closing : Char}
    (hc : closing ∈ [']', '\x7d']) (texts : List (List Char)) (rest : List Char) :
    NumberEnds (writeTail style depth closing texts ++ rest) := by
  have hcons {c : Char} {cs : List Char} (h : c ∈ [',', '\n', ']', '\x7d']) :
      NumberEnds (c :: cs) := by
    intro d hd
    cases hd
    simp only [List.mem_cons, List.not_mem_nil, or_false] at h
    rcases h with rfl | rfl | rfl | rfl <;> decide
  cases texts with
  | nil =>
    cases style with
    | compact => exact hcons (.tail _ (.tail _ hc))
    | pretty => exact hcons (by decide)
  | cons text texts => exact hcons (by decide)

theorem skipSpace_writeTail_nil (style : Style) (depth : Nat) {closing : Char}
    (hc : isSpace closing = false) (rest : List Char) :
    skipSpace (writeTail style depth closing [] ++ rest) = closing :: rest := by
  have h := skipSpace_lineBreak style depth hc rest
  simpa [writeTail] using h

theorem skipSpace_writeTail_cons (style : Style) (depth : Nat) (closing : Char) (text : List Char)
    (texts : List (List Char)) (rest : List Char) :
    skipSpace (writeTail style depth closing (text :: texts) ++ rest) =
      ',' :: (lineBreak style (depth + 1) ++
        (text ++ (writeTail style depth closing texts ++ rest))) := by
  rw [writeTail_cons, List.cons_append, skipSpace_of_opens rfl]
  simp

/-- What is written for this document is read back, at any depth and before anything that does not
go on with a number. -/
def ReadsBack (style : Style) (document : Json) : Prop :=
  ∀ ⦃depth fuel : Nat⦄ ⦃rest : List Char⦄, (writeAt style depth document).length ≤ fuel →
    NumberEnds rest → readValue? fuel (writeAt style depth document ++ rest) =
      some (kept document, rest)

theorem skipSpace_lineBreak_writeAt (style : Style) (depth : Nat) (document : Json)
    (rest : List Char) :
    skipSpace (lineBreak style (depth + 1) ++ (writeAt style (depth + 1) document ++ rest)) =
      writeAt style (depth + 1) document ++ rest := by
  obtain ⟨c, cs, hw, hc⟩ := opens_writeAt style (depth + 1) document
  rw [hw]
  exact skipSpace_lineBreak style (depth + 1) hc.not_space (cs ++ rest)

def writeMember (style : Style) (depth : Nat) (key : String) (value : Json) : List Char :=
  writeKey style key ++ writeAt style depth value

theorem skipSpace_lineBreak_writeMember (style : Style) (depth : Nat) (key : String) (value : Json)
    (rest : List Char) :
    skipSpace (lineBreak style (depth + 1) ++ (writeMember style (depth + 1) key value ++ rest)) =
      writeMember style (depth + 1) key value ++ rest :=
  skipSpace_lineBreak style (depth + 1) (c := '"') (by decide) _

section
variable {style : Style} {depth fuel : Nat}

theorem readItems?_write {item : Json} {items : List Json}
    (h : ∀ j ∈ item :: items, ReadsBack style j) (rest : List Char)
    (hf : (writeAt style (depth + 1) item ++
      writeTail style depth ']' (writeEach style (depth + 1) items)).length ≤ fuel) :
    readItems? fuel (writeAt style (depth + 1) item ++
      (writeTail style depth ']' (writeEach style (depth + 1) items) ++ rest)) =
        some (keptEach (item :: items), rest) := by
  have hclosing : ']' ∈ [']', '\x7d'] := by decide
  induction items generalizing item fuel with
  | nil =>
    have hlen : (writeAt style (depth + 1) item).length + 1 ≤ fuel := by
      simp only [writeEach, writeTail, List.flatMap_nil, List.nil_append, List.length_append,
        List.length_cons, List.length_nil] at hf
      omega
    obtain ⟨fuel, rfl⟩ := Nat.exists_eq_succ_of_ne_zero (show fuel ≠ 0 by omega)
    have hread := h item (.head _) (Nat.le_of_succ_le_succ hlen)
      (numberEnds_writeTail style depth hclosing (writeEach style (depth + 1) []) rest)
    rw [readItems?, hread]
    dsimp only [Option.bind_eq_bind, Option.bind_some]
    rw [writeEach, skipSpace_writeTail_nil style depth (show isSpace ']' = false from rfl)]
    rfl
  | cons next items ih =>
    rw [writeEach, writeTail_cons, List.length_append, List.length_cons, List.length_append] at hf
    obtain ⟨fuel, rfl⟩ := Nat.exists_eq_succ_of_ne_zero (show fuel ≠ 0 by omega)
    have hread := h item (.head _) (show (writeAt style (depth + 1) item).length ≤ fuel by omega)
      (numberEnds_writeTail style depth hclosing (writeEach style (depth + 1) (next :: items)) rest)
    -- The item, its comma and the line break leave enough fuel for the others.
    have hmore := ih (fun j hj => h j (.tail _ hj)) (show _ ≤ fuel by omega)
    rw [readItems?, hread]
    dsimp only [Option.bind_eq_bind, Option.bind_some]
    rw [writeEach, skipSpace_writeTail_cons]
    change (readItems? fuel (skipSpace _)).bind _ = _
    rw [skipSpace_lineBreak_writeAt, hmore]
    rfl

theorem readMembers?_writeMember (key : String) (value : Json) (rest : List Char) :
    readMembers? (fuel + 1) (writeMember style (depth + 1) key value ++ rest) = (do
      let (value, rest) ← readValue? fuel (writeAt style (depth + 1) value ++ rest)
      match skipSpace rest with
      | '\x7d' :: rest => return ([(key.toList.map pieceOf, value)], rest)
      | ',' :: rest =>
        let (members, rest) ← readMembers? fuel (skipSpace rest)
        return ((key.toList.map pieceOf, value) :: members, rest)
      | _ => none) := by
  have hspace : skipSpace ((if style = .pretty then [' '] else []) ++
      (writeAt style (depth + 1) value ++ rest)) = writeAt style (depth + 1) value ++ rest := by
    obtain ⟨c, cs, hw, hc⟩ := opens_writeAt style (depth + 1) value
    rw [hw]
    cases style with
    | compact => exact skipSpace_of_opens hc.not_space _
    | pretty => exact skipSpace_of_opens hc.not_space _
  have hassoc : writeMember style (depth + 1) key value ++ rest =
      '"' :: (key.toList.flatMap escapedChar ++ '"' :: ':' ::
        ((if style = .pretty then [' '] else []) ++ (writeAt style (depth + 1) value ++ rest))) := by
    simp [writeMember, writeKey, writeString]
  rw [hassoc, readMembers?, readPieces?_flatMap]
  dsimp only [Option.bind_eq_bind, Option.bind_some]
  rw [skipSpace_of_opens (by decide)]
  exact congrArg (fun cs => (readValue? fuel cs).bind _) hspace

/-- The members of an object as they are read, before their keys are joined. -/
def piecedMembers (members : List (String × Json)) : List (List Piece × Json) :=
  members.map fun member => (member.1.toList.map pieceOf, member.2)

theorem mapM_piecedMembers (members : List (String × Json)) :
    (piecedMembers members).mapM (fun (key, value) =>
      (joinPieces key).map fun cs => (String.ofList cs, value)) = some members := by
  induction members with
  | nil => rfl
  | cons member members ih =>
    rw [piecedMembers, List.map_cons, List.mapM_cons, ← piecedMembers, ih]
    simp [joinPieces_map_pieceOf]

theorem ofMembers_piecedMembers (members : List (String × Json)) :
    ofMembers (piecedMembers members) = object members := by
  rw [ofMembers, mapM_piecedMembers]

theorem readMembers?_write {key : String} {value : Json} {members : List (String × Json)}
    (h : ∀ m ∈ (key, value) :: members, ReadsBack style m.2) (rest : List Char)
    (hf : (writeMember style (depth + 1) key value ++
      writeTail style depth '\x7d' (writeMembers style (depth + 1) members)).length ≤ fuel) :
    readMembers? fuel (writeMember style (depth + 1) key value ++
      (writeTail style depth '\x7d' (writeMembers style (depth + 1) members) ++ rest)) =
        some (piecedMembers (keptMembers ((key, value) :: members)), rest) := by
  have hclosing : '\x7d' ∈ [']', '\x7d'] := by decide
  have hvalue (key : String) (value : Json) : (writeAt style (depth + 1) value).length ≤
      (writeMember style (depth + 1) key value).length := by
    rw [writeMember, List.length_append]
    exact Nat.le_add_left _ _
  induction members generalizing key value fuel with
  | nil =>
    have hlen : (writeMember style (depth + 1) key value).length + 1 ≤ fuel := by
      simp only [writeMembers, writeTail, List.flatMap_nil, List.nil_append, List.length_append,
        List.length_cons, List.length_nil] at hf
      omega
    obtain ⟨fuel, rfl⟩ := Nat.exists_eq_succ_of_ne_zero (show fuel ≠ 0 by omega)
    have hread := h (key, value) (.head _)
      (Nat.le_trans (hvalue key value) (Nat.le_of_succ_le_succ hlen))
      (numberEnds_writeTail style depth hclosing (writeMembers style (depth + 1) []) rest)
    rw [readMembers?_writeMember, hread]
    dsimp only [Option.bind_eq_bind, Option.bind_some]
    rw [writeMembers, skipSpace_writeTail_nil style depth (show isSpace '\x7d' = false from rfl)]
    rfl
  | cons next members ih =>
    obtain ⟨nextKey, nextValue⟩ := next
    rw [writeMembers, writeTail_cons, List.length_append, List.length_cons,
      List.length_append] at hf
    obtain ⟨fuel, rfl⟩ := Nat.exists_eq_succ_of_ne_zero (show fuel ≠ 0 by omega)
    have hread := h (key, value) (.head _)
      (Nat.le_trans (hvalue key value) (show _ ≤ fuel by omega))
      (numberEnds_writeTail style depth hclosing
        (writeMembers style (depth + 1) ((nextKey, nextValue) :: members)) rest)
    have hmore := ih (fun m hm => h m (.tail _ hm)) (show _ ≤ fuel by rw [writeMember]; omega)
    rw [readMembers?_writeMember, hread]
    dsimp only [Option.bind_eq_bind, Option.bind_some]
    rw [writeMembers, skipSpace_writeTail_cons]
    change (readMembers? fuel (skipSpace
      (_ ++ (writeMember style (depth + 1) nextKey nextValue ++ _)))).bind _ = _
    rw [skipSpace_lineBreak_writeMember, hmore]
    rfl

theorem ReadsBack.scalar (v : Value) : ReadsBack style (.scalar v) := by
  intro depth fuel rest hf hr
  obtain ⟨c, cs, hw, -⟩ := opens_writeScalar v
  rw [writeAt, hw, List.length_cons] at hf
  obtain ⟨fuel, rfl⟩ := Nat.exists_eq_succ_of_ne_zero (show fuel ≠ 0 by omega)
  exact readValue?_writeScalar fuel v hr

theorem readValue?_items {rest cs : List Char} {c : Char} (h : skipSpace rest = c :: cs)
    (hc : c ≠ ']') : readValue? (fuel + 1) ('[' :: rest) =
      (readItems? fuel (c :: cs)).map fun read => (.array read.1, read.2) := by
  rw [readValue?, h]
  split
  · next he =>
    cases he
    exact absurd rfl hc
  · cases readItems? fuel (c :: cs) <;> rfl

theorem readValue?_members {rest cs : List Char} {c : Char} (h : skipSpace rest = c :: cs)
    (hc : c ≠ '\x7d') : readValue? (fuel + 1) ('\x7b' :: rest) =
      (readMembers? fuel (c :: cs)).map fun read => (ofMembers read.1, read.2) := by
  rw [readValue?, h]
  split
  · next he =>
    cases he
    exact absurd rfl hc
  · cases readMembers? fuel (c :: cs) <;> rfl

theorem ReadsBack.array {items : List Json} (h : ∀ item ∈ items, ReadsBack style item) :
    ReadsBack style (.array items) := by
  intro depth fuel rest hf hr
  rw [writeAt] at hf ⊢
  cases items with
  | nil =>
    cases fuel with
    | zero => cases hf
    | succ fuel => rfl
  | cons item items =>
    rw [writeEach, writeItems_cons] at hf ⊢
    rw [List.length_cons, List.length_append] at hf
    obtain ⟨fuel, rfl⟩ := Nat.exists_eq_succ_of_ne_zero (show fuel ≠ 0 by omega)
    have hread := readItems?_write h rest
      (show (writeAt style (depth + 1) item ++ _).length ≤ fuel by omega)
    obtain ⟨c, cs, hw, hc⟩ := opens_writeAt style (depth + 1) item
    have hspace := skipSpace_lineBreak_writeAt style depth item
      (writeTail style depth ']' (writeEach style (depth + 1) items) ++ rest)
    rw [hw, List.cons_append] at hspace hread
    rw [List.cons_append, List.append_assoc, List.append_assoc, hw, List.cons_append,
      readValue?_items hspace hc.ne_closing.1, hread]
    rfl

theorem ReadsBack.object {members : List (String × Json)}
    (h : ∀ m ∈ members, ReadsBack style m.2) : ReadsBack style (.object members) := by
  intro depth fuel rest hf hr
  rw [writeAt] at hf ⊢
  cases members with
  | nil =>
    cases fuel with
    | zero => cases hf
    | succ fuel => rfl
  | cons member members =>
    obtain ⟨key, value⟩ := member
    rw [writeMembers, ← writeMember, writeItems_cons] at hf ⊢
    rw [List.length_cons, List.length_append] at hf
    obtain ⟨fuel, rfl⟩ := Nat.exists_eq_succ_of_ne_zero (show fuel ≠ 0 by omega)
    have hread := readMembers?_write h rest
      (show (writeMember style (depth + 1) key value ++ _).length ≤ fuel by omega)
    have hspace := skipSpace_lineBreak_writeMember style depth key value
      (writeTail style depth '\x7d' (writeMembers style (depth + 1) members) ++ rest)
    rw [List.cons_append, List.append_assoc, List.append_assoc,
      readValue?_members hspace (by decide)]
    change (readMembers? fuel (writeMember style (depth + 1) key value ++ _)).map _ = _
    rw [hread, Option.map_some, ofMembers_piecedMembers]
    rfl

end

theorem induction {P : Json → Prop} (scalar : ∀ v, P (.scalar v)) (meaningless : P .meaningless)
    (array : ∀ items, (∀ item ∈ items, P item) → P (.array items))
    (object : ∀ members, (∀ m ∈ members, P m.2) → P (.object members)) (document : Json) :
    P document := by
  match document with
  | .scalar v => exact scalar v
  | .meaningless => exact meaningless
  | .array items => exact array items fun item _ => induction scalar meaningless array object item
  | .object members =>
    exact object members fun m _ => induction scalar meaningless array object m.2
termination_by sizeOf document
decreasing_by
  · have := List.sizeOf_lt_of_mem ‹item ∈ items›
    simp only [Json.array.sizeOf_spec]
    omega
  · have := List.sizeOf_lt_of_mem ‹m ∈ members›
    obtain ⟨key, value⟩ := m
    simp only [Json.object.sizeOf_spec, Prod.mk.sizeOf_spec] at this ⊢
    omega

theorem readsBack (style : Style) (document : Json) : ReadsBack style document := by
  induction document using induction with
  | scalar v => exact .scalar v
  | meaningless => exact (.scalar .null : ReadsBack style (.scalar .null))
  | array items ih => exact .array ih
  | object members ih => exact .object ih

/-- What is written is read back, except that floats without a numeral have become null. -/
theorem parse?_write (style : Style) (document : Json) :
    parse? (document.write style) = some document.kept := by
  obtain ⟨c, cs, hw, hc⟩ := opens_writeAt style 0 document
  have hspace : skipSpace (document.writeAt style 0) = document.writeAt style 0 := by
    rw [hw]
    exact skipSpace_of_opens hc.not_space cs
  have hends : NumberEnds [] := by
    intro _ hc
    cases hc
  have hread := readsBack style document (Nat.le_succ (document.writeAt style 0).length) hends
  rw [List.append_nil] at hread
  rw [parse?, write, String.toList_ofList, hspace]
  dsimp only
  rw [hread]
  rfl

end Json

end DocBase
