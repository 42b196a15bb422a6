import DocBase.FileSystem
import DocBase.Proofs.OrderedMap
import DocBase.Proofs.Path

namespace DocBase

theorem bind_eq_ok_iff {ε α β : Type} {x : Except ε α} {f : α → Except ε β} {b : β} :
    x >>= f = .ok b ↔ ∃ a, x = .ok a ∧ f a = .ok b := by
  cases x <;> simp [bind, Except.bind]

namespace FileSystem

variable {fs : FileSystem} {location : Location}

theorem entry?_put (h : location ≠ []) (entry : Entry) (other : Location) :
    entry? (fs.put location entry) other =
      if other = location then some entry else fs.entry? other := by
  by_cases ho : other = []
  · have hne : other ≠ location := fun he => h (he ▸ ho)
    unfold entry?
    rw [if_pos ho, if_pos ho, if_neg hne]
  · unfold entry?
    rw [if_neg ho, if_neg ho]
    exact fs.entries.get?_assign location other entry

def without (fs : FileSystem) (location : Location) : FileSystem :=
  { fs with entries := fs.entries.erase location }

theorem entry?_without (h : location ≠ []) (other : Location) :
    entry? (fs.without location) other =
      if other = location then none else fs.entry? other := by
  by_cases ho : other = []
  · have hne : other ≠ location := fun he => h (he ▸ ho)
    unfold entry?
    rw [if_pos ho, if_pos ho, if_neg hne]
  · unfold entry?
    rw [if_neg ho, if_neg ho]
    exact fs.entries.get?_erase location other

theorem enter_cons_eq_ok_iff {d l : Location} {name : String} {names : List String} :
    fs.enter d (name :: names) = .ok l ↔ ∃ next, step d name = .ok next ∧
      fs.entry? next = some .directory ∧ fs.enter next names = .ok l := by
  rw [enter, bind_eq_ok_iff]
  apply exists_congr
  intro next
  apply and_congr_right
  intro _
  cases hn : fs.entry? next with
  | none => exact iff_of_false nofun fun h => nomatch h.1
  | some entry =>
    cases entry with
    | file text => exact iff_of_false nofun fun h => nomatch h.1
    | binary bytes => exact iff_of_false nofun fun h => nomatch h.1
    | directory => exact (and_iff_right rfl).symm

/-- A way into a directory stays open as long as all directories stay. -/
theorem enter_of_directories {fs' : FileSystem}
    (h : ∀ l, fs.entry? l = some .directory → fs'.entry? l = some .directory) {d l : Location}
    {names : List String} (he : fs.enter d names = .ok l) : fs'.enter d names = .ok l := by
  induction names generalizing d with
  | nil => exact he
  | cons name names ih =>
    obtain ⟨next, hs, hn, he⟩ := enter_cons_eq_ok_iff.1 he
    exact enter_cons_eq_ok_iff.2 ⟨next, hs, h next hn, ih he⟩

/-- Two states of the files with the same directories in them. -/
structure SameDirectories (fs fs' : FileSystem) : Prop where
  start : fs'.workingDirectory = fs.workingDirectory
  iff (l : Location) : fs'.entry? l = some .directory ↔ fs.entry? l = some .directory

theorem SameDirectories.of_change {fs' : FileSystem} {e : Option Entry}
    (h : fs.entry? location ≠ some .directory) (he : e ≠ some .directory)
    (start : fs'.workingDirectory = fs.workingDirectory)
    (hl : ∀ l, fs'.entry? l = if l = location then e else fs.entry? l) :
    SameDirectories fs fs' := by
  refine ⟨start, ?_⟩
  intro l
  rw [hl]
  split
  · next hl => exact iff_of_false he (hl ▸ h)
  · exact .rfl

theorem ne_nil_of_not_directory (h : fs.entry? location ≠ some .directory) : location ≠ [] :=
  fun hl => h (hl ▸ rfl)

theorem SameDirectories.put (h : fs.entry? location ≠ some .directory) (text : String) :
    SameDirectories fs (fs.put location (.file text)) :=
  .of_change h (by simp) rfl (entry?_put (ne_nil_of_not_directory h) _)

theorem SameDirectories.without (h : fs.entry? location ≠ some .directory) :
    SameDirectories fs (fs.without location) :=
  .of_change h (e := none) nofun rfl (entry?_without (ne_nil_of_not_directory h))

theorem SameDirectories.symm {fs' : FileSystem} (h : SameDirectories fs fs') :
    SameDirectories fs' fs :=
  ⟨h.start.symm, fun l => (h.iff l).symm⟩

theorem SameDirectories.enterAll {fs' : FileSystem} (h : SameDirectories fs fs') {route : Route}
    (hl : fs.enterAll route = .ok location) : fs'.enterAll route = .ok location := by
  rw [FileSystem.enterAll] at hl ⊢
  rw [h.start]
  exact enter_of_directories (fun l => (h.iff l).2) hl

theorem SameDirectories.locate {fs' : FileSystem} (h : SameDirectories fs fs') {route : Route}
    (hl : fs.locate route = .ok location) : fs'.locate route = .ok location := by
  obtain ⟨directory, hd, hn⟩ := bind_eq_ok_iff.1 hl
  exact bind_eq_ok_iff.2 ⟨directory, h.enterAll hd, hn⟩

/-- A path leads to this location, and a file can stand there by its spelling. -/
def Points (fs : FileSystem) (path : Path) (location : Location) : Prop :=
  ∃ route, path.route = .ok route ∧ route.ending = .name ∧ fs.locate route = .ok location

theorem Points.of_sameDirectories {fs' : FileSystem} {path : Path} (h : fs.Points path location)
    (hs : SameDirectories fs fs') : fs'.Points path location := by
  obtain ⟨route, hr, hn, hl⟩ := h
  exact ⟨route, hr, hn, hs.locate hl⟩

theorem Points.unique {path : Path} {other : Location} (h : fs.Points path location)
    (ho : fs.Points path other) : other = location := by
  obtain ⟨route, hr, -, hl⟩ := h
  obtain ⟨route', hr', -, hl'⟩ := ho
  rw [hr] at hr'
  cases hr'
  rw [hl] at hl'
  cases hl'
  rfl

theorem read_eq_ok_iff {path : Path} {text : String} : fs.read path = .ok text ↔
    ∃ location, fs.Points path location ∧ fs.entry? location = some (.file text) := by
  rw [read, bind_eq_ok_iff]
  constructor
  · intro h
    obtain ⟨⟨l, entry⟩, hf, h⟩ := h
    cases entry with
    | file found =>
      cases h
      obtain ⟨route, hr, hk⟩ := bind_eq_ok_iff.1 hf
      obtain ⟨l', hl, hk⟩ := bind_eq_ok_iff.1 hk
      split at hk
      · cases hk
      · split at hk
        · next he hn =>
          cases hk
          exact ⟨l, ⟨route, hr, hn, hl⟩, he⟩
        · cases hk
      · cases hk
    | binary content => cases h
    | directory => cases h
  · intro h
    obtain ⟨l, ⟨route, hr, hn, hl⟩, he⟩ := h
    refine ⟨(l, .file text), bind_eq_ok_iff.2 ⟨route, hr, bind_eq_ok_iff.2 ⟨l, hl, ?_⟩⟩, rfl⟩
    rw [he]
    exact if_pos hn

/-- A file is written where no directory stands. -/
theorem write_eq_ok_iff {path : Path} {text : String} {fs' : FileSystem} :
    fs.write path text = .ok fs' ↔ ∃ location, fs.Points path location ∧
      fs.entry? location ≠ some .directory ∧ fs' = fs.put location (.file text) := by
  rw [write, bind_eq_ok_iff]
  constructor
  · intro h
    obtain ⟨route, hr, h⟩ := h
    split at h
    · next hn =>
      obtain ⟨l, hl, h⟩ := bind_eq_ok_iff.1 h
      split at h
      · cases h
      · next hd =>
        cases h
        exact ⟨l, ⟨route, hr, hn, hl⟩, hd, rfl⟩
    · obtain ⟨_, -, h⟩ := bind_eq_ok_iff.1 h
      cases h
    · obtain ⟨_, -, h⟩ := bind_eq_ok_iff.1 h
      cases h
  · intro h
    obtain ⟨l, ⟨route, hr, hn, hl⟩, hd, rfl⟩ := h
    refine ⟨route, hr, ?_⟩
    rw [hn]
    refine bind_eq_ok_iff.2 ⟨l, hl, ?_⟩
    split
    · next he => exact absurd he hd
    · rfl

theorem sameDirectories_of_write {path : Path} {text : String} {fs' : FileSystem}
    (h : fs.write path text = .ok fs') : SameDirectories fs fs' := by
  obtain ⟨l, -, hd, rfl⟩ := write_eq_ok_iff.1 h
  exact .put hd text

theorem read_of_write {path : Path} {text : String} {fs' : FileSystem}
    (h : fs.write path text = .ok fs') : fs'.read path = .ok text := by
  have hs := sameDirectories_of_write h
  obtain ⟨l, hp, hd, rfl⟩ := write_eq_ok_iff.1 h
  refine read_eq_ok_iff.2 ⟨l, hp.of_sameDirectories hs, ?_⟩
  rw [entry?_put (ne_nil_of_not_directory hd), if_pos rfl]

theorem read_of_read_write {path other : Path} {text found : String} {fs' : FileSystem}
    (h : fs.write path text = .ok fs') (hr : fs'.read other = .ok found) :
    found = text ∨ fs.read other = .ok found := by
  have hs := sameDirectories_of_write h
  obtain ⟨l, -, hd, rfl⟩ := write_eq_ok_iff.1 h
  obtain ⟨l', hp, he⟩ := read_eq_ok_iff.1 hr
  rw [entry?_put (ne_nil_of_not_directory hd)] at he
  split at he
  · cases he
    exact .inl rfl
  · exact .inr (read_eq_ok_iff.2 ⟨l', hp.of_sameDirectories hs.symm, he⟩)

theorem entry?_of_find {path : Path} {entry : Entry} (h : fs.find path = .ok (location, entry)) :
    fs.entry? location = some entry := by
  rw [find, bind_eq_ok_iff] at h
  obtain ⟨route, -, h⟩ := h
  rw [look, bind_eq_ok_iff] at h
  obtain ⟨l, -, h⟩ := h
  split at h
  · next he =>
    cases h
    exact he
  · next he =>
    split at h
    · cases h
      exact he
    · cases h
  · cases h

/-- A path leads to a location, where something can stand by its spelling. -/
def Reaches (fs : FileSystem) (path : Path) (location : Location) : Prop :=
  ∃ route, path.route = .ok route ∧ fs.locate route = .ok location ∧
    (route.ending = .name ∨ fs.entry? location = some .directory)

theorem Points.reaches {path : Path} (h : fs.Points path location) : fs.Reaches path location := by
  obtain ⟨route, hr, hn, hl⟩ := h
  exact ⟨route, hr, hl, .inl hn⟩

theorem Reaches.points {path : Path} (h : fs.Reaches path location)
    (hd : fs.entry? location ≠ some .directory) : fs.Points path location := by
  obtain ⟨route, hr, hl, he⟩ := h
  exact ⟨route, hr, he.resolve_right hd, hl⟩

theorem Reaches.of_sameDirectories {fs' : FileSystem} {path : Path} (h : fs.Reaches path location)
    (hs : SameDirectories fs fs') : fs'.Reaches path location := by
  obtain ⟨route, hr, hl, he⟩ := h
  exact ⟨route, hr, hs.locate hl, he.imp_right (hs.iff location).2⟩

theorem Reaches.of_find {path : Path} {entry : Entry}
    (h : fs.find path = .ok (location, entry)) : fs.Reaches path location := by
  obtain ⟨route, hr, hk⟩ := bind_eq_ok_iff.1 h
  obtain ⟨l, hl, hk⟩ := bind_eq_ok_iff.1 hk
  refine ⟨route, hr, ?_⟩
  split at hk
  · next he =>
    cases hk
    exact ⟨hl, .inr he⟩
  · split at hk
    · next hn =>
      cases hk
      exact ⟨hl, .inl hn⟩
    · cases hk
  · cases hk

theorem Reaches.find_eq {path : Path} (h : fs.Reaches path location) :
    fs.find path = match fs.entry? location with
      | some entry => .ok (location, entry)
      | none => .error .notFound := by
  obtain ⟨route, hr, hl, hn⟩ := h
  rw [find, hr]
  change look fs route = _
  rw [look, hl]
  dsimp only [bind, Except.bind]
  cases he : fs.entry? location with
  | none => rfl
  | some entry =>
    rw [he] at hn
    cases entry with
    | directory => rfl
    | file text => exact if_pos (hn.resolve_right nofun)
    | binary content => exact if_pos (hn.resolve_right nofun)

/-- What is found at the end of a path depends on the directories and on what stands there. -/
theorem Reaches.find_congr {fs' : FileSystem} {path : Path} (h : fs.Reaches path location)
    (hs : SameDirectories fs fs') (he : fs'.entry? location = fs.entry? location) :
    fs'.find path = fs.find path := by
  rw [h.find_eq, (h.of_sameDirectories hs).find_eq, he]

/-- What is written to a file is found only along a path that leads there. -/
theorem Reaches.find_put {path : Path} {other : Location} {text : String}
    (h : fs.Reaches path location) (hd : fs.entry? other ≠ some .directory)
    (hp : ¬ fs.Points path other) :
    find (fs.put other (.file text)) path = fs.find path := by
  have hs : SameDirectories fs (fs.put other (.file text)) := .put hd text
  apply h.find_congr hs
  rw [entry?_put (ne_nil_of_not_directory hd), if_neg]
  intro he
  subst he
  exact hp (h.points hd)

theorem Reaches.find_without {path : Path} {other : Location} (h : fs.Reaches path location)
    (hd : fs.entry? other ≠ some .directory) (hp : ¬ fs.Points path other) :
    find (fs.without other) path = fs.find path := by
  apply h.find_congr (.without hd)
  rw [entry?_without (ne_nil_of_not_directory hd), if_neg]
  intro he
  subst he
  exact hp (h.points hd)

theorem remove_eq_ok_iff {path : Path} {fs' : FileSystem} :
    fs.remove path = .ok fs' ↔ ∃ location entry, fs.Points path location ∧
      fs.entry? location = some entry ∧ entry ≠ .directory ∧ fs' = fs.without location := by
  rw [remove, bind_eq_ok_iff]
  constructor
  · intro h
    obtain ⟨⟨l, entry⟩, hf, h⟩ := h
    have he := entry?_of_find hf
    have hp (hd : entry ≠ .directory) : fs.Points path l := by
      apply (Reaches.of_find hf).points
      rw [he]
      exact fun hx => hd (Option.some.inj hx)
    cases entry with
    | directory => cases h
    | file text =>
      cases h
      exact ⟨l, _, hp nofun, he, nofun, rfl⟩
    | binary content =>
      cases h
      exact ⟨l, _, hp nofun, he, nofun, rfl⟩
  · intro h
    obtain ⟨l, entry, hp, he, hd, rfl⟩ := h
    refine ⟨(l, entry), ?_, ?_⟩
    · rw [hp.reaches.find_eq, he]
    · cases entry with
      | directory => exact absurd rfl hd
      | file text => rfl
      | binary content => rfl

theorem sameDirectories_of_remove {path : Path} {fs' : FileSystem}
    (h : fs.remove path = .ok fs') : SameDirectories fs fs' := by
  obtain ⟨l, entry, -, he, hd, rfl⟩ := remove_eq_ok_iff.1 h
  apply SameDirectories.without
  rw [he]
  exact fun hx => hd (Option.some.inj hx)

/-- A path leads to a location through directories. -/
def Leads (fs : FileSystem) (directory : Path) (location : Location) : Prop :=
  fs.enterAll (.ofChars directory.text.toList) = .ok location

def Fits (directory : Path) (name : String) : Prop :=
  (directory.join name).text.utf8ByteSize < pathLimit ∧ name.utf8ByteSize ≤ maxNameLength

theorem Leads.of_sameDirectories {fs' : FileSystem} {directory : Path}
    (h : fs.Leads directory location) (hs : SameDirectories fs fs') :
    fs'.Leads directory location :=
  hs.enterAll h

section
variable {directory : Path} {name : String}

theorem enterAll_parent_down :
    fs.enterAll ((Route.ofChars directory.text.toList).down name).parent =
      fs.enterAll (.ofChars directory.text.toList) := by
  rw [enterAll, enterAll, Route.parent, Route.down, List.dropLast_concat]

theorem exists_leads_of_locate {l : Location}
    (h : fs.locate ((Route.ofChars directory.text.toList).down name) = .ok l) :
    ∃ location, fs.Leads directory location := by
  obtain ⟨location, hd, -⟩ := bind_eq_ok_iff.1 h
  rw [enterAll_parent_down] at hd
  exact ⟨location, hd⟩

section
variable (hn : FileName name)
include hn

/-- Where something is found in a directory, the directory is found too. -/
theorem exists_leads_of_find {found : Location × Entry}
    (h : fs.find (directory.join name) = .ok found) : ∃ location, fs.Leads directory location := by
  rw [find, Path.route_join directory hn] at h
  split at h
  · change look fs _ = _ at h
    obtain ⟨l, hl, -⟩ := bind_eq_ok_iff.1 h
    exact exists_leads_of_locate hl
  · cases h

theorem exists_leads_of_write {text : String} {fs' : FileSystem}
    (h : fs.write (directory.join name) text = .ok fs') :
    ∃ location, fs.Leads directory location := by
  rw [write, Path.route_join directory hn] at h
  split at h
  · change (locate fs _ >>= _) = _ at h
    obtain ⟨l, hl, -⟩ := bind_eq_ok_iff.1 h
    exact exists_leads_of_locate hl
  · cases h

end

def readEntry : Option Entry → Except IoError String
  | some (.file text) => .ok text
  | some (.binary _) => .error .notText
  | some .directory => .error .isDirectory
  | none => .error .notFound

namespace Leads

variable (h : fs.Leads directory location) (hn : FileName name)
include h hn

theorem locate_down : fs.locate ((Route.ofChars directory.text.toList).down name) =
    if name.utf8ByteSize ≤ maxNameLength then .ok (location ++ [name])
    else .error .nameTooLong := by
  have hd : fs.enterAll (.ofChars directory.text.toList) = .ok location := h
  rw [locate, enterAll_parent_down, hd, Route.down, List.getLast?_concat]
  change step location name = _
  rw [step, if_neg hn.notParent]
  by_cases hl : name.utf8ByteSize ≤ maxNameLength
  · rw [if_pos hl, if_neg (Nat.not_lt_of_le hl)]
  · rw [if_neg hl, if_pos (Nat.lt_of_not_le hl)]

theorem points_join_iff {l : Location} : fs.Points (directory.join name) l ↔
    Fits directory name ∧ l = location ++ [name] := by
  rw [Points, Path.route_join directory hn]
  constructor
  · intro hp
    obtain ⟨route, hr, -, hl⟩ := hp
    split at hr
    · next hs =>
      cases hr
      rw [h.locate_down hn] at hl
      split at hl
      · next hm =>
        cases hl
        exact ⟨⟨hs, hm⟩, rfl⟩
      · cases hl
    · cases hr
  · intro hf
    obtain ⟨⟨hs, hm⟩, rfl⟩ := hf
    refine ⟨_, if_pos hs, rfl, ?_⟩
    rw [h.locate_down hn, if_pos hm]

theorem find_join_of_fits (hf : Fits directory name) : fs.find (directory.join name) =
    match fs.entry? (location ++ [name]) with
    | some entry => .ok (location ++ [name], entry)
    | none => .error .notFound := by
  rw [find, Path.route_join directory hn, if_pos hf.1]
  change look fs _ = _
  rw [look, h.locate_down hn, if_pos hf.2]
  dsimp only [bind, Except.bind]
  cases fs.entry? (location ++ [name]) with
  | none => rfl
  | some entry => cases entry <;> rfl

theorem find_join_of_not_fits (hf : ¬ Fits directory name) :
    fs.find (directory.join name) = .error .nameTooLong := by
  rw [find, Path.route_join directory hn]
  split
  · next hs =>
    change look fs _ = _
    rw [look, h.locate_down hn, if_neg fun hm => hf ⟨hs, hm⟩]
    rfl
  · rfl

theorem read_join_of_fits (hf : Fits directory name) :
    fs.read (directory.join name) = readEntry (fs.entry? (location ++ [name])) := by
  rw [read, h.find_join_of_fits hn hf]
  cases fs.entry? (location ++ [name]) with
  | none => rfl
  | some entry => cases entry <;> rfl

theorem read_join_of_not_fits (hf : ¬ Fits directory name) :
    fs.read (directory.join name) = .error .nameTooLong := by
  rw [read, h.find_join_of_not_fits hn hf]
  rfl

theorem write_join_of_fits (hf : Fits directory name) (text : String) :
    fs.write (directory.join name) text =
      if fs.entry? (location ++ [name]) = some .directory then .error .isDirectory
      else .ok (fs.put (location ++ [name]) (.file text)) := by
  rw [write, Path.route_join directory hn, if_pos hf.1]
  change (locate fs _ >>= _) = _
  rw [h.locate_down hn, if_pos hf.2]
  dsimp only [bind, Except.bind]
  split
  · next he =>
    rw [if_pos he]
    rfl
  · next he =>
    rw [if_neg he]
    rfl

theorem write_join_of_not_fits (hf : ¬ Fits directory name) (text : String) :
    fs.write (directory.join name) text = .error .nameTooLong := by
  rw [write, Path.route_join directory hn]
  split
  · next hs =>
    change (locate fs _ >>= _) = _
    rw [h.locate_down hn, if_neg fun hm => hf ⟨hs, hm⟩]
    rfl
  · rfl

end Leads

end

/-- A path leads to a directory, and only texts stand in it. -/
structure Holds (fs : FileSystem) (directory : Path) (location : Location) : Prop where
  leads : fs.Leads directory location
  texts {name : String} {entry : Entry} : fs.entry? (location ++ [name]) = some entry →
    ∃ text, entry = .file text

namespace Holds

variable {directory : Path} {name : String}

theorem not_directory (h : fs.Holds directory location) (name : String) :
    fs.entry? (location ++ [name]) ≠ some .directory := by
  intro hd
  obtain ⟨text, he⟩ := h.texts hd
  cases he

theorem put (h : fs.Holds directory location) (name text : String) :
    (fs.put (location ++ [name]) (.file text)).Holds directory location where
  leads := h.leads.of_sameDirectories (.put (h.not_directory name) _)
  texts := by
    intro other entry he
    rw [entry?_put (by simp)] at he
    split at he
    · exact ⟨text, (Option.some.inj he).symm⟩
    · exact h.texts he

theorem without (h : fs.Holds directory location) (name : String) :
    (fs.without (location ++ [name])).Holds directory location where
  leads := h.leads.of_sameDirectories (.without (h.not_directory name))
  texts := by
    intro other entry he
    rw [entry?_without (by simp)] at he
    split at he
    · cases he
    · exact h.texts he

section
variable (h : fs.Holds directory location) (hn : FileName name)
include h hn

theorem find_join_eq_ok_iff {l : Location} {entry : Entry} :
    fs.find (directory.join name) = .ok (l, entry) ↔
      Fits directory name ∧ l = location ++ [name] ∧ fs.entry? l = some entry := by
  by_cases hf : Fits directory name
  · rw [h.leads.find_join_of_fits hn hf]
    constructor
    · intro hx
      split at hx
      · next he =>
        cases hx
        exact ⟨hf, rfl, he⟩
      · cases hx
    · intro hx
      obtain ⟨-, rfl, he⟩ := hx
      rw [he]
  · rw [h.leads.find_join_of_not_fits hn hf]
    exact iff_of_false nofun fun hx => hf hx.1

theorem read_join_eq_ok_iff {text : String} : fs.read (directory.join name) = .ok text ↔
    Fits directory name ∧ fs.entry? (location ++ [name]) = some (.file text) := by
  rw [read, bind_eq_ok_iff]
  constructor
  · intro hx
    obtain ⟨⟨l, entry⟩, hf, ht⟩ := hx
    obtain ⟨hs, rfl, he⟩ := (h.find_join_eq_ok_iff hn).1 hf
    obtain ⟨text', rfl⟩ := h.texts he
    cases ht
    exact ⟨hs, he⟩
  · intro hx
    obtain ⟨hs, he⟩ := hx
    exact ⟨_, (h.find_join_eq_ok_iff hn).2 ⟨hs, rfl, he⟩, rfl⟩

theorem find_join_of_absent (hf : Fits directory name)
    (ha : fs.entry? (location ++ [name]) = none) :
    fs.find (directory.join name) = .error .notFound := by
  rw [h.leads.find_join_of_fits hn hf, ha]

theorem isFile_join_iff : fs.isFile (directory.join name) ↔
    ∃ text, Fits directory name ∧ fs.entry? (location ++ [name]) = some (.file text) := by
  rw [isFile]
  constructor
  · intro hf
    split at hf
    · next l entry he =>
      obtain ⟨hs, rfl, he⟩ := (h.find_join_eq_ok_iff hn).1 he
      obtain ⟨text, rfl⟩ := h.texts he
      exact ⟨text, hs, he⟩
    · cases hf
  · intro hx
    obtain ⟨text, hs, he⟩ := hx
    rw [(h.find_join_eq_ok_iff hn).2 ⟨hs, rfl, he⟩]
    rfl

theorem write_join_eq_ok_iff {text : String} {fs' : FileSystem} :
    fs.write (directory.join name) text = .ok fs' ↔
      Fits directory name ∧ fs' = fs.put (location ++ [name]) (.file text) := by
  by_cases hf : Fits directory name
  · rw [h.leads.write_join_of_fits hn hf, if_neg (h.not_directory name)]
    simp [hf, eq_comm]
  · rw [h.leads.write_join_of_not_fits hn hf]
    exact iff_of_false nofun fun hx => hf hx.1

theorem remove_join_eq_ok_iff {fs' : FileSystem} : fs.remove (directory.join name) = .ok fs' ↔
    (∃ text, Fits directory name ∧ fs.entry? (location ++ [name]) = some (.file text)) ∧
      fs' = fs.without (location ++ [name]) := by
  rw [remove, bind_eq_ok_iff]
  constructor
  · intro hx
    obtain ⟨⟨l, entry⟩, hf, hr⟩ := hx
    obtain ⟨hs, rfl, he⟩ := (h.find_join_eq_ok_iff hn).1 hf
    obtain ⟨text, rfl⟩ := h.texts he
    cases hr
    exact ⟨⟨text, hs, he⟩, rfl⟩
  · intro hx
    obtain ⟨⟨text, hs, he⟩, rfl⟩ := hx
    exact ⟨_, (h.find_join_eq_ok_iff hn).2 ⟨hs, rfl, he⟩, rfl⟩

end

end Holds

theorem enter_append_eq_ok_iff {d l : Location} {names more : List String} :
    fs.enter d (names ++ more) = .ok l ↔
      ∃ next, fs.enter d names = .ok next ∧ fs.enter next more = .ok l := by
  induction names generalizing d with
  | nil => simp [enter]
  | cons name names ih =>
    rw [List.cons_append]
    simp only [enter_cons_eq_ok_iff, ih]
    constructor
    · intro h
      obtain ⟨next, hs, hn, last, hl, he⟩ := h
      exact ⟨last, ⟨next, hs, hn, hl⟩, he⟩
    · intro h
      obtain ⟨last, ⟨next, hs, hn, hl⟩, he⟩ := h
      exact ⟨next, hs, hn, last, hl, he⟩

theorem locate_of_enterAll {route : Route} (h : fs.enterAll route = .ok location) :
    fs.locate route = .ok location := by
  rw [enterAll] at h
  rw [locate, enterAll, Route.parent]
  rcases List.eq_nil_or_concat route.names with hn | ⟨names, name, hn⟩
  · rw [hn] at h ⊢
    cases h
    rfl
  · rw [List.concat_eq_append] at hn
    rw [hn, enter_append_eq_ok_iff] at h
    obtain ⟨directory, hd, hs⟩ := h
    obtain ⟨next, hs, -, he⟩ := enter_cons_eq_ok_iff.1 hs
    cases he
    rw [hn, List.dropLast_concat, hd, List.getLast?_concat]
    exact hs

theorem ne_nil_of_absent (h : fs.entry? location = none) : location ≠ [] := by
  intro he
  subst he
  cases h

theorem enterAll_put_directory {l : Location} {route : Route} (h : fs.enterAll route = .ok l)
    (hn : fs.entry? location = none) : enterAll (fs.put location .directory) route = .ok l := by
  rw [enterAll] at h ⊢
  apply enter_of_directories _ h
  intro other ho
  rw [entry?_put (ne_nil_of_absent hn)]
  split
  · rfl
  · exact ho

theorem makeDirectory_of_absent {route : Route} (h : fs.enterAll route = .ok location)
    (hn : fs.entry? location = none) :
    fs.makeDirectory route = .ok (fs.put location .directory) := by
  rw [makeDirectory, h, locate_of_enterAll h, ite_self]
  simp [bind, Except.bind, hn, pure, Except.pure]

theorem makeDirectory_of_present {route : Route} (h : fs.enterAll route = .ok location)
    {entry : Entry} (he : fs.entry? location = some entry) :
    fs.makeDirectory route = .error .alreadyExists := by
  rw [makeDirectory, h, locate_of_enterAll h, ite_self]
  simp [bind, Except.bind, he, throw, throwThe, MonadExceptOf.throw]

theorem enterAll_of_locate {route : Route} (h : fs.locate route = .ok location)
    (hd : fs.entry? location = some .directory) : fs.enterAll route = .ok location := by
  rw [locate, enterAll, Route.parent] at h
  rw [enterAll]
  rcases List.eq_nil_or_concat route.names with hn | ⟨names, name, hn⟩
  · rw [hn] at h ⊢
    exact h
  · rw [List.concat_eq_append] at hn
    rw [hn, List.dropLast_concat, bind_eq_ok_iff, List.getLast?_concat] at h
    obtain ⟨directory, hp, hs⟩ := h
    rw [hn, enter_append_eq_ok_iff]
    exact ⟨directory, hp, enter_cons_eq_ok_iff.2 ⟨location, hs, hd, rfl⟩⟩

/-- There is a directory at a path, unless the path is empty. -/
def IsMade (fs : FileSystem) (path : Path) : Prop :=
  path.text.isEmpty ∨ ∃ route location, path.route = .ok route ∧
    fs.enterAll route = .ok location ∧ fs.entry? location = some .directory

theorem IsMade.of_sameDirectories {fs' : FileSystem} {path : Path} (h : fs.IsMade path)
    (hs : SameDirectories fs fs') : fs'.IsMade path := by
  apply h.imp_right
  intro hx
  obtain ⟨route, l, hr, hl, hd⟩ := hx
  exact ⟨route, l, hr, hs.enterAll hl, (hs.iff l).2 hd⟩

theorem IsMade.makeDirectories {path : Path} (h : fs.IsMade path) :
    fs.makeDirectories path = (.ok (), fs) := by
  rw [FileSystem.makeDirectories]
  rcases h with he | ⟨route, l, hr, hl, hd⟩
  · rw [Path.route, if_pos he]
    dsimp only
    rw [if_pos he]
  · have hlook : fs.look route = .ok (l, .directory) := by
      rw [look, locate_of_enterAll hl]
      dsimp only [bind, Except.bind]
      rw [hd]
      rfl
    rw [hr]
    dsimp only
    rw [ensureDirectories, ensureDirectory, makeDirectory_of_present hl hd, hlook]

theorem enterAll_of_makeDirectory {route : Route} {fs' : FileSystem}
    (h : fs.makeDirectory route = .ok fs') :
    ∃ location, fs'.enterAll route = .ok location ∧ fs'.entry? location = some .directory := by
  have hput {l : Location} (hl : fs.locate route = .ok l) (hm : (match fs.entry? l with
        | some _ => throw .alreadyExists
        | none => return fs.put l .directory : Except IoError FileSystem) = .ok fs') :
      ∃ location, fs'.enterAll route = .ok location ∧ fs'.entry? location = some .directory := by
    split at hm
    · cases hm
    · next hn =>
      cases hm
      have hd : entry? (fs.put l .directory) l = some .directory := by
        rw [entry?_put (ne_nil_of_absent hn), if_pos rfl]
      obtain ⟨directory, hp, hname⟩ := bind_eq_ok_iff.1 hl
      have hl' : locate (fs.put l .directory) route = .ok l :=
        bind_eq_ok_iff.2 ⟨directory, enterAll_put_directory hp hn, hname⟩
      exact ⟨l, enterAll_of_locate hl' hd, hd⟩
  rw [makeDirectory] at h
  split at h
  · obtain ⟨l, hl, hm⟩ := bind_eq_ok_iff.1 h
    exact hput (locate_of_enterAll hl) hm
  · obtain ⟨l, hl, hm⟩ := bind_eq_ok_iff.1 h
    exact hput hl hm

theorem enterAll_of_ensureDirectory {route : Route} {fs' : FileSystem}
    (h : fs.ensureDirectory route = .ok fs') :
    ∃ location, fs'.enterAll route = .ok location ∧ fs'.entry? location = some .directory := by
  rw [ensureDirectory] at h
  split at h
  · next hm =>
    cases h
    exact enterAll_of_makeDirectory hm
  · next hlook =>
    cases h
    rw [look] at hlook
    obtain ⟨l, hl, hk⟩ := bind_eq_ok_iff.1 hlook
    split at hk
    · next hd => exact ⟨l, enterAll_of_locate hl hd, hd⟩
    · next hd _ =>
      split at hk
      · cases hk
        contradiction
      · cases hk
    · cases hk
  · cases h

theorem enterAll_of_ensureDirectories {route : Route} {fs' : FileSystem}
    (h : fs.ensureDirectories route = (.ok (), fs')) :
    ∃ location, fs'.enterAll route = .ok location ∧ fs'.entry? location = some .directory := by
  rw [ensureDirectories] at h
  split at h
  · next hm =>
    cases h
    exact enterAll_of_ensureDirectory hm
  · split at h
    · cases h
    · split at h
      · cases h
      · split at h
        · next hm =>
          cases h
          exact enterAll_of_ensureDirectory hm
        · cases h
  · cases h

theorem isMade_of_makeDirectories {path : Path} {fs' : FileSystem}
    (h : fs.makeDirectories path = (.ok (), fs')) : fs'.IsMade path := by
  rw [makeDirectories] at h
  split at h
  · next route hr =>
    obtain ⟨l, hl, hd⟩ := enterAll_of_ensureDirectories h
    exact .inr ⟨route, l, hr, hl, hd⟩
  · split at h
    · next he => exact .inl he
    · cases h

/-- A path leads to a directory in which nothing stands. The empty path leads to where paths
start. -/
def IsEmptyDirectory (fs : FileSystem) (directory : Path) : Prop :=
  ∃ location, fs.enterAll (.ofChars directory.text.toList) = .ok location ∧
    ∀ name, fs.entry? (location ++ [name]) = none

theorem IsEmptyDirectory.makeDirectories {directory : Path} (h : fs.IsEmptyDirectory directory) :
    (fs.makeDirectories directory).2.IsEmptyDirectory directory := by
  obtain ⟨location, hd, hnone⟩ := h
  have hput : fs.entry? location = none →
      (fs.put location .directory).IsEmptyDirectory directory := by
    intro hn
    refine ⟨location, enterAll_put_directory hd hn, ?_⟩
    intro name
    rw [entry?_put (ne_nil_of_absent hn), if_neg (by simp)]
    exact hnone name
  rw [FileSystem.makeDirectories]
  split
  · next route hr =>
    obtain rfl := Path.eq_ofChars_of_route hr
    rw [ensureDirectories, ensureDirectory]
    cases hl : fs.entry? location with
    | none =>
      rw [makeDirectory_of_absent hd hl]
      exact hput hl
    | some entry =>
      rw [makeDirectory_of_present hd hl]
      cases fs.look (.ofChars directory.text.toList) with
      | error e => exact ⟨location, hd, hnone⟩
      | ok found =>
        obtain ⟨l, found⟩ := found
        cases found with
        | file text => exact ⟨location, hd, hnone⟩
        | binary bytes => exact ⟨location, hd, hnone⟩
        | directory => exact ⟨location, hd, hnone⟩
  · exact ⟨location, hd, hnone⟩

end FileSystem

end DocBase
