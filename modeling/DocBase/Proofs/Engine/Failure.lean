import DocBase.Proofs.Store.Directory
import DocBase.Proofs.Store.Memory

namespace DocBase

namespace Engine

open DocBase.Sql

/-- In this state of a store, no statement can stop between its table and the catalog. -/
structure Uninterrupted {σ : Type} [Store σ] (store : σ) : Prop where
  create {catalog catalog' : Catalog} {table : String} {half : σ} :
    Store.loadCatalog store = .ok catalog → Store.saveTable store table [] = .ok half →
    ∃ store', Store.saveCatalog half catalog' = .ok store'
  drop {catalog catalog' : Catalog} {table : String} {half : σ} :
    Store.loadCatalog store = .ok catalog → catalog.contains table →
    discard store table = .ok half → ∃ store', Store.saveCatalog half catalog' = .ok store'

section
variable {σ : Type} [Store σ] {store : σ} {ids : IdSource}

theorem Transition.store_eq_of_error {s : Statement} {o : Outcome σ} {e : QueryError}
    (ht : Transition store ids s o) (h : Uninterrupted store) (he : o.result = .error e) :
    o.store = store := by
  cases ht with
  | refused => rfl
  | halfCreated warnings hc hs hf =>
    obtain ⟨store', hok⟩ := h.create hc hs
    rw [hok] at hf
    cases hf
  | halfDropped hc hd hm hf =>
    obtain ⟨store', hok⟩ := h.drop hc hm hd
    rw [hok] at hf
    cases hf
  | selected | rewritten | created | dropped | undeclaredDropped => cases he

theorem execute_store_eq_of_error {text : String} {e : QueryError} (h : Uninterrupted store)
    (he : (execute store ids text).result = .error e) : (execute store ids text).store = store := by
  cases hp : parse text with
  | error cause => rw [execute_of_parse_error hp]
  | ok s => exact (execute_transition hp).store_eq_of_error h he

end

theorem uninterrupted_memory (store : MemoryStore) : Uninterrupted store where
  create _ _ := ⟨_, rfl⟩
  drop _ _ _ := ⟨_, rfl⟩

theorem uninterrupted_directory {store : DirectoryStore}
    (hu : store.config.catalogFile = ".schema.json") : Uninterrupted store where
  create hc hs := by
    obtain ⟨hp, location, hl⟩ := DirectoryStore.eq_ok_of_saveTable hs
    have hw := DirectoryStore.CatalogWritable.of_loadCatalog hu hl hc
    exact ⟨_, (hw.of_samePlaces hp).saveCatalog _⟩
  drop {catalog catalog' table half} hc hm hd := by
    obtain ⟨location, hl⟩ := DirectoryStore.exists_leads_of_contains hu hc hm
    have hw := DirectoryStore.CatalogWritable.of_loadCatalog hu hl hc
    rw [discard] at hd
    split at hd
    · have hp := DirectoryStore.samePlaces_of_deleteTable hd
      exact ⟨_, (hw.of_samePlaces hp).saveCatalog _⟩
    · cases hd
      exact ⟨_, hw.saveCatalog _⟩

/-- A text that fails leaves every store in memory as it was, and every store in a directory whose
catalog goes by its usual name, whatever stands in the directory or in its place. -/
theorem failed_changes_nothing (ids : IdSource) (text : String) :
    (∀ (store : MemoryStore) (e : QueryError),
      (execute store ids text).result = .error e → (execute store ids text).store = store) ∧
    ∀ (directory : String) (style : Json.Style) (files : FileSystem) (e : QueryError),
      let store : DirectoryStore := ⟨.standard directory style, files⟩
      (execute store ids text).result = .error e → (execute store ids text).store = store := by
  constructor
  · intro store e he
    exact execute_store_eq_of_error (uninterrupted_memory store) he
  · intro directory style files e store he
    exact execute_store_eq_of_error (uninterrupted_directory rfl) he

/-- Nothing changes where the file of a table is no text, and nothing where there is no table. -/
theorem failed_insert_changes_nothing :
    let text := "INSERT INTO t VALUES (1)"
    let files := ((FileSystem.empty.put ["data"] .directory).put ["data", ".schema.json"]
      (.file "\x7b\"t\":\x7b\"a\":\"INTEGER\"\x7d\x7d")).put ["data", "t.json"]
      (.binary ⟨⟨#[0xff]⟩, by decide⟩)
    let store : DirectoryStore := ⟨.standard "data" .compact, files⟩
    let o := execute store ⟨0, 0, 0⟩ text
    let o' := execute MemoryStore.empty ⟨0, 0, 0⟩ text
    o.result = .error (.storage (.io .notText)) ∧ o.store = store ∧
      o'.result = .error (.tableNotFound "t") ∧ o'.store = .empty := by
  intro text files store o o'
  obtain ⟨hmemory, hdirectory⟩ := failed_changes_nothing ⟨0, 0, 0⟩ text
  have he : o.result = .error (.storage (.io .notText)) := by decide +kernel
  have he' : o'.result = .error (.tableNotFound "t") := by decide +kernel
  exact ⟨he, hdirectory "data" .compact files _ he, he', hmemory .empty _ he'⟩

end Engine

end DocBase
