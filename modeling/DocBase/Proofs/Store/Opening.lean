import DocBase.Proofs.Store.Directory

namespace DocBase.DirectoryStore

open FileSystem

/-- A store that was opened in a directory in a style of this kind. -/
structure OpenedIn (styles : Json.Style → Prop) (directory : String) (location : Location)
    (s : DirectoryStore) : Prop where
  style : ∃ style, styles style ∧ s.config = .standard directory style
  leads : s.files.Leads ⟨directory⟩ location
  made : s.files.IsMade ⟨directory⟩
  fits : Fits ⟨directory⟩ ".schema.json"
  catalog : s.files.entry? (location ++ [".schema.json"]) ≠ none

namespace OpenedIn

variable {styles : Json.Style → Prop} {directory : String} {location : Location}
  {s : DirectoryStore} {table : String} (h : s.OpenedIn styles directory location)
include h

theorem directoryPath_eq : directoryPath s.config = ⟨directory⟩ := by
  obtain ⟨style, -, hc⟩ := h.style
  rw [hc]
  rfl

theorem directory_eq : s.config.directory = directory := by
  obtain ⟨style, -, hc⟩ := h.style
  rw [hc]
  rfl

theorem leads_config : s.files.Leads (directoryPath s.config) location := by
  rw [h.directoryPath_eq]
  exact h.leads

theorem fits_config : Fits (directoryPath s.config) ".schema.json" := by
  rw [h.directoryPath_eq]
  exact h.fits

theorem usual : s.config.catalogFile = ".schema.json" := by
  obtain ⟨style, -, hc⟩ := h.style
  rw [hc]
  rfl

theorem styles_config : styles s.config.style := by
  obtain ⟨style, hs, hc⟩ := h.style
  rw [hc]
  exact hs

theorem change {files : FileSystem} (hs : SameDirectories s.files files)
    (hc : files.entry? (location ++ [".schema.json"]) ≠ none) :
    OpenedIn styles directory location { s with files := files } where
  style := h.style
  leads := h.leads.of_sameDirectories hs
  made := h.made.of_sameDirectories hs
  fits := h.fits
  catalog := hc

theorem putFile {name text : String}
    (hd : s.files.entry? (location ++ [name]) ≠ some .directory) :
    (s.putFile location name text).OpenedIn styles directory location := by
  have hs : SameDirectories s.files (s.files.put (location ++ [name]) (.file text)) :=
    .put hd _
  apply h.change hs
  rw [entry?_put (by simp)]
  split
  · exact Option.some_ne_none _
  · exact h.catalog

theorem withoutTable (hn : isTableName table)
    (hd : s.files.entry? (location ++ [table ++ ".json"]) ≠ some .directory) :
    (s.withoutFile location (table ++ ".json")).OpenedIn styles directory location := by
  apply h.change (.without hd)
  rw [entry?_without (by simp), if_neg (catalogLocation_ne hn)]
  exact h.catalog

theorem restyle {styles' : Json.Style → Prop} {style : Json.Style} (hs : styles' style) :
    OpenedIn styles' directory location ⟨.standard directory style, s.files⟩ where
  style := ⟨style, hs, rfl⟩
  leads := h.leads
  made := h.made
  fits := h.fits
  catalog := h.catalog

theorem openIn_eq (style : Json.Style) : openIn (.standard directory style) s.files =
    (.ok ⟨.standard directory style, s.files⟩, s.files) := by
  have hexists : s.files.pathExists (catalogPath (.standard directory style)) := by
    rw [pathExists]
    change (find s.files ((⟨directory⟩ : Path).join ".schema.json")).isOk
    rw [h.leads.find_join_of_fits fileName_catalog h.fits]
    obtain ⟨entry, he⟩ := Option.ne_none_iff_exists'.1 h.catalog
    rw [he]
    rfl
  have hmade : s.files.makeDirectories (directoryPath (.standard directory style)) =
      (.ok (), s.files) := h.made.makeDirectories
  rw [openIn, hmade]
  dsimp only
  rw [if_pos hexists]

end OpenedIn

theorem openIn_restyle {directory : String} {style : Json.Style} {files : FileSystem}
    {s : DirectoryStore} (ho : (openIn (.standard directory style) files).1 = .ok s)
    (style' : Json.Style) : (openIn (.standard directory style') files).1 =
      .ok ⟨.standard directory style', s.files⟩ := by
  have hd : directoryPath (.standard directory style') =
      directoryPath (.standard directory style) := rfl
  have hc : catalogPath (.standard directory style') =
      catalogPath (.standard directory style) := rfl
  rw [openIn] at ho ⊢
  rw [hd, hc]
  split at ho
  · cases ho
  · split at ho
    · next hp =>
      cases ho
      rw [if_pos hp]
    · next hp =>
      split at ho
      · cases ho
        rw [if_neg hp]
      · cases ho

theorem openIn_eq_of_ok {config : DirectoryConfig} {files : FileSystem} {s : DirectoryStore}
    (ho : (openIn config files).1 = .ok s) : openIn config files = (.ok s, s.files) := by
  rw [openIn] at ho ⊢
  split at ho
  · cases ho
  · split at ho
    · next hp =>
      cases ho
      rw [if_pos hp]
    · next hp =>
      split at ho
      · cases ho
        rw [if_neg hp]
      · cases ho

theorem fst_makeDirectories_of_openIn {config : DirectoryConfig} {files : FileSystem}
    {s : DirectoryStore} (ho : (openIn config files).1 = .ok s) :
    (files.makeDirectories (directoryPath config)).1 = .ok () := by
  rw [openIn] at ho
  split at ho
  · cases ho
  · next h => rw [h]

/-- Whatever else is in the directory, an opened store has found it and a catalog in it. -/
theorem openedIn_of_openIn {directory : String} {style : Json.Style} {files : FileSystem}
    {s : DirectoryStore} (ho : (openIn (.standard directory style) files).1 = .ok s) :
    ∃ location, s.OpenedIn (· = style) directory location := by
  have hok := fst_makeDirectories_of_openIn ho
  generalize hm : files.makeDirectories (directoryPath (.standard directory style)) = result at hok
  obtain ⟨answer, made⟩ := result
  cases hok
  have hmade : made.IsMade ⟨directory⟩ := isMade_of_makeDirectories hm
  rcases openIn_eq_ok (congrArg Prod.snd hm) ho with ⟨hp, rfl⟩ | ⟨files', hw, rfl⟩
  · rw [pathExists] at hp
    change (find made ((⟨directory⟩ : Path).join ".schema.json")).isOk at hp
    cases hf : find made ((⟨directory⟩ : Path).join ".schema.json") with
    | error e =>
      rw [hf] at hp
      cases hp
    | ok found =>
      obtain ⟨location, hl⟩ := exists_leads_of_find fileName_catalog hf
      by_cases hfits : Fits ⟨directory⟩ ".schema.json"
      · refine ⟨location, ⟨style, rfl, rfl⟩, hl, hmade, hfits, ?_⟩
        intro he
        rw [hl.find_join_of_fits fileName_catalog hfits, he] at hf
        cases hf
      · rw [hl.find_join_of_not_fits fileName_catalog hfits] at hf
        cases hf
  · change made.write ((⟨directory⟩ : Path).join ".schema.json") _ = _ at hw
    have hs := sameDirectories_of_write hw
    obtain ⟨location, hl⟩ := exists_leads_of_write fileName_catalog hw
    by_cases hfits : Fits ⟨directory⟩ ".schema.json"
    · refine ⟨location, ⟨style, rfl, rfl⟩, hl.of_sameDirectories hs, hmade.of_sameDirectories hs,
        hfits, ?_⟩
      obtain ⟨l, hp, -, rfl⟩ := write_eq_ok_iff.1 hw
      obtain ⟨-, rfl⟩ := (hl.points_join_iff fileName_catalog).1 hp
      rw [entry?_put (by simp), if_pos rfl]
      exact Option.some_ne_none _
    · rw [hl.write_join_of_not_fits fileName_catalog hfits] at hw
      cases hw

end DocBase.DirectoryStore
