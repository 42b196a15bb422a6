import DocBase.Path

namespace DocBase

namespace Text

variable {separator : Char}

theorem split_ne_nil (separator : Char) (cs : List Char) : split separator cs ≠ [] := by
  cases cs with
  | nil => exact nofun
  | cons c cs =>
    rw [split]
    split
    · exact nofun
    · split <;> exact nofun

theorem split_of_not_mem {cs : List Char} (h : separator ∉ cs) : split separator cs = [cs] := by
  induction cs with
  | nil => rfl
  | cons c cs ih =>
    obtain ⟨hc, hcs⟩ := not_or.1 (mt List.mem_cons.2 h)
    rw [split, if_neg (Ne.symm hc), ih hcs]

theorem split_append_cons (cs ds : List Char) :
    split separator (cs ++ separator :: ds) = split separator cs ++ split separator ds := by
  induction cs with
  | nil =>
    rw [List.nil_append, split.eq_2, if_pos rfl]
    rfl
  | cons c cs ih =>
    rw [List.cons_append, split, split, ih]
    split
    · rfl
    · cases hs : split separator cs with
      | nil => exact absurd hs (split_ne_nil separator cs)
      | cons piece pieces => rfl

end Text

/-- The names that something in a directory can go by. -/
structure FileName (name : String) : Prop where
  noSlash : '/' ∉ name.toList
  nonempty : name ≠ ""
  notSelf : name ≠ "."
  notParent : name ≠ ".."

namespace Route

def pieces (cs : List Char) : List String :=
  ((Text.split '/' cs).map String.ofList).filter (· ≠ "")

def down (r : Route) (name : String) : Route := ⟨r.absolute, r.names ++ [name], .name⟩

theorem pieces_append_cons (cs ds : List Char) :
    pieces (cs ++ '/' :: ds) = pieces cs ++ pieces ds := by
  rw [pieces, Text.split_append_cons, List.map_append, List.filter_append]
  rfl

theorem pieces_name {name : String} (h : FileName name) : pieces name.toList = [name] := by
  rw [pieces, Text.split_of_not_mem h.noSlash]
  simp [h.nonempty]

end Route

namespace Path

open Route

theorem eq_ofChars_of_route {path : Path} {route : Route} (h : path.route = .ok route) :
    route = .ofChars path.text.toList := by
  rw [Path.route] at h
  split at h
  · cases h
  · split at h
    · cases h
    · exact (Except.ok.inj h).symm

theorem utf8ByteSize_join_le (directory : Path) (text : String) :
    (directory.join text).text.utf8ByteSize ≤
      directory.text.utf8ByteSize + 1 + text.utf8ByteSize := by
  have hslash : "/".utf8ByteSize = 1 := by decide
  rw [join]
  split
  · exact Nat.le_add_left _ _
  · split
    · rw [String.utf8ByteSize_append]
      omega
    · rw [String.utf8ByteSize_append, String.utf8ByteSize_append]
      omega

theorem join_cases (directory : Path) {name : String} (h : FileName name) :
    directory.text = "" ∧ directory.join name = ⟨name⟩ ∨
      ∃ cs, (directory.join name).text.toList = cs ++ '/' :: name.toList ∧
        pieces cs = pieces directory.text.toList ∧
        (cs ++ ['/']).head? = directory.text.toList.head? := by
  have hhead : ¬ name.toList.head? = some '/' := fun hs => h.noSlash (List.mem_of_head? hs)
  rw [join, if_neg hhead]
  by_cases he : directory.text = ""
  · left
    simp [he]
  right
  by_cases hl : directory.text.toList.getLast? = some '/'
  · obtain ⟨cs, hcs⟩ := List.getLast?_eq_some_iff.1 hl
    refine ⟨cs, ?_, ?_, by rw [hcs]⟩
    · simp [hcs]
    · rw [hcs, pieces_append_cons]
      exact (List.append_nil _).symm
  · refine ⟨directory.text.toList, ?_, rfl, ?_⟩
    · simp [he, hl]
    · cases hd : directory.text.toList with
      | nil => exact absurd (String.toList_eq_nil_iff.1 hd) he
      | cons c cs => rfl

section
variable (directory : Path) {name : String} (h : FileName name)
include h

theorem pieces_join :
    pieces (directory.join name).text.toList = pieces directory.text.toList ++ [name] := by
  rcases join_cases directory h with ⟨hd, hj⟩ | ⟨cs, hj, hp, -⟩
  · rw [hj, hd]
    exact pieces_name h
  · rw [hj, pieces_append_cons, hp, pieces_name h]

theorem head?_join : (directory.join name).text.toList.head? = some '/' ↔
    directory.text.toList.head? = some '/' := by
  rcases join_cases directory h with ⟨hd, hj⟩ | ⟨cs, hj, -, hc⟩
  · rw [hj, hd]
    exact iff_of_false (fun hs => h.noSlash (List.mem_of_head? hs)) nofun
  · rw [hj, ← hc]
    cases cs <;> rfl

theorem getLast?_join : (directory.join name).text.toList.getLast? ≠ some '/' := by
  have hlast : name.toList.getLast? ≠ some '/' := fun hl =>
    h.noSlash (List.mem_of_getLast? hl)
  rcases join_cases directory h with ⟨-, hj⟩ | ⟨cs, hj, -⟩
  · rwa [hj]
  · have hn : name.toList ≠ [] := mt String.toList_eq_nil_iff.1 h.nonempty
    rw [hj, List.getLast?_append, List.getLast?_cons_of_ne_nil hn]
    cases hc : name.toList.getLast? with
    | none => exact absurd (List.getLast?_eq_none_iff.1 hc) hn
    | some c =>
      rw [hc] at hlast
      exact hlast

theorem ofChars_join : Route.ofChars (directory.join name).text.toList =
    (Route.ofChars directory.text.toList).down name := by
  have hnames : (pieces directory.text.toList ++ [name]).filter (· ≠ ".") =
      (pieces directory.text.toList).filter (· ≠ ".") ++ [name] := by
    simp [h.notSelf]
  have hending : endingOf (some name)
      ((directory.join name).text.toList.getLast? = some '/') = .name := by
    rw [decide_eq_false (getLast?_join directory h), endingOf]
    · rfl
    · exact h.notSelf
  rw [Route.ofChars, ← pieces, pieces_join directory h, hnames, List.getLast?_concat, hending,
    decide_eq_decide.2 (head?_join directory h)]
  rfl

theorem route_join : (directory.join name).route =
    if (directory.join name).text.utf8ByteSize < pathLimit then
      .ok ((Route.ofChars directory.text.toList).down name)
    else .error .nameTooLong := by
  have hne : (directory.join name).text.isEmpty = false := by
    rw [String.isEmpty_eq_false_iff]
    intro he
    have hp := pieces_join directory h
    rw [he] at hp
    exact absurd hp.symm (List.append_ne_nil_of_right_ne_nil _ (List.cons_ne_nil _ _))
  rw [Path.route, hne, ofChars_join directory h]
  by_cases hl : pathLimit ≤ (directory.join name).text.utf8ByteSize
  · simp [hl, Nat.not_lt_of_le hl]
  · simp [hl, Nat.lt_of_not_le hl]

end

end Path

end DocBase
