import DocBase.CommandLine.Shell
import DocBase.Proofs.FileSystem

namespace DocBase

namespace CommandLine

open FileSystem

namespace History

def location (fs : FileSystem) : Location := fs.workingDirectory ++ [".jsondb_history"]

theorem fileName : FileName ".jsondb_history" := ⟨by decide, by decide, by decide, by decide⟩

theorem fits : Fits ⟨""⟩ ".jsondb_history" := ⟨by decide, by decide⟩

theorem file_eq : file = (⟨""⟩ : Path).join ".jsondb_history" := by decide

theorem leads (fs : FileSystem) : fs.Leads ⟨""⟩ fs.workingDirectory := rfl

theorem read_file (fs : FileSystem) : fs.read file = readEntry (fs.entry? (location fs)) := by
  rw [file_eq, (leads fs).read_join_of_fits fileName fits]
  rfl

theorem write_file (fs : FileSystem) (text : String) : fs.write file text =
    if fs.entry? (location fs) = some .directory then .error .isDirectory
    else .ok (fs.put (location fs) (.file text)) := by
  rw [file_eq, (leads fs).write_join_of_fits fileName fits]
  rfl

def complaint {α : Type} (doing : String) : Except IoError α → List String
  | .ok _ => []
  | .error e => ["Error " ++ doing ++ " history: " ++ e.message]

theorem changed_add {h : History} (hc : h.changed) (line : String) : (h.add line).changed := by
  rw [add]
  split
  · exact hc
  · rfl

theorem changed_foldl_add {h : History} (hc : h.changed) (lines : List String) :
    (lines.foldl add h).changed := by
  induction lines generalizing h with
  | nil => exact hc
  | cons line lines ih => exact ih (changed_add hc line)

/-- The history that a shell starts with: none if it cannot be loaded. -/
def loaded (files : FileSystem) : History := (load files).toOption.getD ⟨[], false⟩

theorem not_changed_loaded (files : FileSystem) : (loaded files).changed = false := by
  rw [loaded, load]
  split <;> rfl

theorem exists_read_of_loaded {files : FileSystem} (hn : (loaded files).lines ≠ []) :
    ∃ text, files.read file = .ok text := by
  rw [loaded, load] at hn
  split at hn
  · next text hr => exact ⟨text, hr⟩
  · exact absurd rfl hn
  · exact absurd rfl hn

theorem changed_or_exists_read (files : FileSystem) {lines : List String} (hne : lines ≠ [])
    (hl : ∀ line ∈ lines, line ≠ "") : (lines.foldl add (loaded files)).changed ∨
      ∃ text, files.read file = .ok text := by
  by_cases hn : (loaded files).lines = []
  · left
    obtain ⟨line, lines, rfl⟩ := List.exists_cons_of_ne_nil hne
    rw [List.foldl_cons]
    apply changed_foldl_add
    rw [add, hn]
    simp [hl line (.head _)]
  · exact .inr (exists_read_of_loaded hn)

end History

namespace Shell

open History

theorem start_eq (db : Database) : start db =
    (welcome :: complaint "loading" (load db.store.files),
      ⟨db, loaded db.store.files⟩) := by
  rw [start, loaded]
  cases load db.store.files <;> rfl

section
variable (s : Shell)

theorem finish_cases : s.finish.2 = s.database.store.files ∨
    ∃ text, s.database.store.files.entry? (location s.database.store.files) ≠ some .directory ∧
      s.finish.2 = s.database.store.files.put (location s.database.store.files) (.file text) := by
  rw [finish, save]
  split
  · next files hs =>
    split at hs
    · rw [write_file] at hs
      split at hs
      · cases hs
      · next hd =>
        cases hs
        exact .inr ⟨_, hd, rfl⟩
    · cases hs
      exact .inl rfl
  · exact .inl rfl

/-- What else there is to read is the same once the history is saved. -/
theorem read_finish {directory : Path} {l : Location} {name : String}
    (hl : s.database.store.files.Leads directory l) (hn : FileName name)
    (hne : name ≠ ".jsondb_history") :
    s.finish.2.read (directory.join name) = s.database.store.files.read (directory.join name) := by
  rcases s.finish_cases with he | ⟨text, hd, he⟩
  · rw [he]
  · have hother : l ++ [name] ≠ location s.database.store.files := by
      intro hp
      exact hne (List.singleton_inj.1 (List.append_inj' hp rfl).2)
    have hl' := hl.of_sameDirectories (.put hd text)
    rw [he]
    by_cases hf : Fits directory name
    · rw [hl.read_join_of_fits hn hf, hl'.read_join_of_fits hn hf,
        entry?_put (ne_nil_of_not_directory hd), if_neg hother]
    · rw [hl.read_join_of_not_fits hn hf, hl'.read_join_of_not_fits hn hf]

theorem fst_finish_of_not_changed (h : s.history.changed = false) : s.finish.1 = [] := by
  rw [finish, save, h]
  rfl

theorem fst_finish_of_changed {files : FileSystem}
    (hs : SameDirectories files s.database.store.files)
    (hc : s.history.changed ∨ ∃ text, files.read file = .ok text) :
    s.finish.1 = complaint "saving" (files.write file "") := by
  have hplace : s.database.store.files.entry? (location s.database.store.files) =
      some .directory ↔ files.entry? (location files) = some .directory := by
    rw [location, hs.start, hs.iff]
    rfl
  rw [finish, save, write_file, write_file]
  by_cases hd : files.entry? (location files) = some .directory
  · have hchanged : s.history.changed := by
      apply hc.resolve_right
      rintro ⟨text, hr⟩
      rw [read_file, hd] at hr
      cases hr
    rw [if_pos hchanged, if_pos (hplace.2 hd), if_pos hd]
    rfl
  · rw [if_neg hd, if_neg (mt hplace.1 hd)]
    split
    · rfl
    · next e he => split at he <;> cases he

theorem fst_finish {files : FileSystem} {lines : List String}
    (hs : SameDirectories files s.database.store.files)
    (hh : s.history = lines.foldl add (loaded files)) (hl : ∀ line ∈ lines, line ≠ "") :
    s.finish.1 = if lines.isEmpty then [] else complaint "saving" (files.write file "") := by
  cases lines with
  | nil =>
    apply fst_finish_of_not_changed
    rw [hh]
    exact not_changed_loaded files
  | cons line lines =>
    apply s.fst_finish_of_changed hs
    rw [hh]
    exact changed_or_exists_read files (List.cons_ne_nil line lines) hl

end

end Shell

end CommandLine

end DocBase
