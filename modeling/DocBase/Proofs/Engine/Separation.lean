import DocBase.Proofs.Engine.Renaming

namespace DocBase

open Engine Sql

namespace Declaration

variable {table other : String}

theorem drop_apply (d : Declaration) (table : String) (c : Catalog) :
    (d.apply table c).drop table = c.drop table := by
  cases d with
  | kept => rfl
  | declared schema => exact congrArg Catalog.mk (c.tables.erase_assign_self table schema)
  | dropped => exact congrArg Catalog.mk (c.tables.erase_erase_self table)

theorem schema?_apply_congr (d : Declaration) {c c' : Catalog}
    (h : c.schema? table = c'.schema? table) :
    (d.apply table c).schema? table = (d.apply table c').schema? table := by
  cases d with
  | kept => exact h
  | declared schema => rw [apply, apply, Catalog.schema?_create, Catalog.schema?_create, if_pos rfl,
      if_pos rfl]
  | dropped => rw [apply, apply, Catalog.schema?_drop, Catalog.schema?_drop, if_pos rfl, if_pos rfl]

section
variable (hne : table ≠ other) (d d' : Declaration) (c : Catalog)
include hne

theorem schema?_comm (name : String) :
    (d'.apply other (d.apply table c)).schema? name =
      (d.apply table (d'.apply other c)).schema? name := by
  by_cases ht : name = table
  · subst ht
    rw [d'.schema?_apply _ hne]
    exact d.schema?_apply_congr (d'.schema?_apply c hne).symm
  · rw [d.schema?_apply _ ht]
    by_cases ho : name = other
    · subst ho
      exact d'.schema?_apply_congr (d.schema?_apply c ht)
    · rw [d'.schema?_apply _ ho, d'.schema?_apply _ ho, d.schema?_apply _ ht]

/-- Only tables that are both new come to stand in the order of their declarations. -/
theorem apply_comm (h : (∃ schema, d = .declared schema) → (∃ schema, d' = .declared schema) →
      c.contains table ∨ c.contains other) :
    d'.apply other (d.apply table c) = d.apply table (d'.apply other c) := by
  cases d with
  | kept => rfl
  | declared schema =>
    cases d' with
    | kept => rfl
    | declared schema' =>
      have hm := h ⟨schema, rfl⟩ ⟨schema', rfl⟩
      rw [Catalog.contains_iff, Catalog.contains_iff] at hm
      exact congrArg Catalog.mk (c.tables.assign_comm hne schema schema' hm)
    | dropped => exact congrArg Catalog.mk (c.tables.erase_assign hne schema)
  | dropped =>
    cases d' with
    | kept => rfl
    | declared schema' => exact congrArg Catalog.mk (c.tables.erase_assign hne.symm schema').symm
    | dropped => exact congrArg Catalog.mk (c.tables.erase_comm table other)

end

end Declaration

/-- A statement that declares a table which the catalog does not have. -/
def Sql.Statement.Adds (catalog : Catalog) : Statement → Prop
  | create s => ¬ catalog.contains s.table
  | _ => False

namespace Engine

variable {σ : Type}

section
variable [Store σ]

def executeAfter (store : σ) (ids : IdSource) (earlier text : String) : Outcome σ :=
  execute (execute store ids earlier).store (execute store ids earlier).ids text

/-- What a statement leaves as it was: the records and the entry of every other table, and as the
case may be the catalog or the whole store. -/
structure Outcome.Confined (store : σ) (s : Statement) (o : Outcome σ) : Prop where
  loadTable : ∀ table ≠ s.table, Store.loadTable o.store table = Store.loadTable store table
  tableExists : ∀ table ≠ s.table, Store.tableExists o.store table = Store.tableExists store table
  entries : ∃ before after, Store.loadCatalog store = .ok before ∧
    Store.loadCatalog o.store = .ok after ∧ after.drop s.table = before.drop s.table
  select : (∃ q, s = .select q) → o.store = store
  catalog : (¬ ∃ q, s = .create q) → (¬ ∃ q, s = .drop q) →
    Store.loadCatalog o.store = Store.loadCatalog store

/-- Two stores have the same tables with the same records, but for a renaming of identifiers. -/
structure SameTables (ρ : RecordId → RecordId) (store store' : σ) : Prop where
  tableExists (table : String) : Store.tableExists store' table = Store.tableExists store table
  loadTable (table : String) : Store.loadTable store' table =
    (Store.loadTable store table).map (List.map (Record.rename ρ))

/-- Two statements come to the same in either order. Only identifiers that they give out get other
names, and only tables that are both new stand in another order in the catalog. -/
structure Interchangeable (store : σ) (ids : IdSource) (text₁ text₂ : String) (s₁ s₂ : Statement) :
    Prop where
  result₁ : (executeAfter store ids text₂ text₁).result = (execute store ids text₁).result
  warnings₁ : (executeAfter store ids text₂ text₁).warnings = (execute store ids text₁).warnings
  result₂ : (executeAfter store ids text₁ text₂).result = (execute store ids text₂).result
  warnings₂ : (executeAfter store ids text₁ text₂).warnings = (execute store ids text₂).warnings
  source : (executeAfter store ids text₂ text₁).ids = (executeAfter store ids text₁ text₂).ids
  tables : ∃ ρ : Equiv.Perm RecordId,
    (∀ id, ρ id ≠ id → ∃ n, ids.count ≤ n ∧ n < (executeAfter store ids text₁ text₂).ids.count ∧
      id = ids.idAt n) ∧
    SameTables ρ (executeAfter store ids text₁ text₂).store
      (executeAfter store ids text₂ text₁).store
  catalog : ∃ before after after', Store.loadCatalog store = .ok before ∧
    Store.loadCatalog (executeAfter store ids text₁ text₂).store = .ok after ∧
    Store.loadCatalog (executeAfter store ids text₂ text₁).store = .ok after' ∧
    after.tables.entries.Perm after'.tables.entries ∧
    (¬ (s₁.Adds before ∧ s₂.Adds before) → after = after')

/-- From this state no statement does anything but to its own table, and any two on different tables
can change places. -/
structure Separate (store : σ) (ids : IdSource) : Prop where
  confined {text : String} {s : Statement} :
    parse text = .ok s → (execute store ids text).Confined store s
  interchangeable {text₁ text₂ : String} {s₁ s₂ : Statement} : parse text₁ = .ok s₁ →
    parse text₂ = .ok s₂ → s₁.table ≠ s₂.table → Interchangeable store ids text₁ text₂ s₁ s₂

end

namespace Effect

variable {keep : Record → Record} {p : Place} {ids : IdSource} {s : Statement}

theorem declaration_rewrite (table : String) (warnings : List Warning) (drawn : Nat)
    (change : List Record → List Record) (message : List Record → String) :
    (rewrite keep p table warnings drawn change message).declaration = .kept := by
  rw [rewrite]
  split <;> rfl

theorem declaration_select (q : Select) : (select p q).declaration = .kept := by
  rw [select]
  split
  · split <;> rfl
  · rfl

theorem declaration_of_kept (hc : ¬ ∃ q, s = .create q) (hd : ¬ ∃ q, s = .drop q) :
    (of keep p ids s).declaration = .kept := by
  cases s with
  | select q => exact declaration_select q
  | insert q => exact declaration_rewrite ..
  | update q => exact declaration_rewrite ..
  | delete q => exact declaration_rewrite ..
  | create q => exact absurd ⟨q, rfl⟩ hc
  | drop q => exact absurd ⟨q, rfl⟩ hd

theorem tables_rename_comm {table other : String} (hne : table ≠ other) {ρ : RecordId → RecordId}
    {v : View} (hv : ∀ name, ∀ records ∈ v.tables name, Fixes ρ records) (e e' : Effect)
    (name : String) :
    ((e.rename ρ).apply table ((e'.rename ρ).apply other v)).tables name =
      ((e'.apply other (e.apply table v)).tables name).map (List.map (Record.rename ρ)) := by
  simp only [tables_apply]
  by_cases ht : name = table
  · rw [if_pos ht, if_neg fun ho => hne (ht.symm.trans ho), if_pos ht, rename]
  · rw [if_neg ht, if_neg ht]
    split
    · rfl
    · cases hr : v.tables name with
      | none => rfl
      | some records => exact congrArg some (hv name records hr).map_rename.symm

theorem adds_of_declared {catalog : Catalog}
    (h : ∃ schema, (of keep p ids s).declaration = .declared schema)
    (hm : ¬ catalog.contains s.table) : s.Adds catalog := by
  obtain ⟨schema, h⟩ := h
  by_cases hc : ∃ q, s = .create q
  · obtain ⟨q, rfl⟩ := hc
    exact hm
  · by_cases hd : ∃ q, s = .drop q
    · obtain ⟨q, rfl⟩ := hd
      change (drop p q).declaration = _ at h
      rw [drop] at h
      split at h <;> cases h
    · rw [declaration_of_kept hc hd] at h
      cases h

end Effect

section
variable [Store σ] {Shows : σ → View → Prop} {room : String → Except StorageError Unit}
  {keep : Record → Record} (E : Exact σ Shows room keep) {store store' : σ} {v v' : View}
  {ids : IdSource}

include E in
theorem sameTables_of_shows (hs : Shows store v) (hs' : Shows store' v') {ρ : RecordId → RecordId}
    (h : ∀ table, v'.tables table = (v.tables table).map (List.map (Record.rename ρ))) :
    SameTables ρ store store' where
  tableExists table := by
    rw [E.tableExists_eq hs, E.tableExists_eq hs']
    change (v'.tables table).isSome = (v.tables table).isSome
    rw [h, Option.isSome_map]
  loadTable table := by
    have ht := h table
    rw [E.load_eq hs, E.load_eq hs']
    cases hv : v.tables table with
    | some records =>
      rw [hv] at ht
      rw [Place.load_of_present (p := v.place room table) hv,
        Place.load_of_present (p := v'.place room table) ht]
      rfl
    | none =>
      rw [hv] at ht
      rw [Place.load_of_absent (p := v.place room table) hv,
        Place.load_of_absent (p := v'.place room table) ht]
      change (room table >>= _) = Except.map _ (room table >>= _)
      cases room table <;> rfl

section
variable (hs : Shows store v) (hn : v.catalog.Named) {text : String} {s : Statement}
  (hp : parse text = .ok s)
include E hs hn hp

theorem confined : (execute store ids text).Confined store s := by
  have R := execute_realizes ids E hn hs hp
  refine ⟨?_, ?_, ?_, ?_, ?_⟩
  · intro table hne
    rw [E.load_eq R.shows, E.load_eq hs, Effect.place_apply _ hne]
  · intro table hne
    rw [E.tableExists_eq R.shows, E.tableExists_eq hs, Effect.place_apply _ hne]
  · exact ⟨_, _, E.loadCatalog hs, E.loadCatalog R.shows, Declaration.drop_apply ..⟩
  · intro hq
    obtain ⟨q, rfl⟩ := hq
    have ht : Transition store ids (.select q) (execute store ids text) := execute_transition hp
    generalize execute store ids text = o at ht
    cases ht with
    | refused => rfl
    | selected => rfl
    | rewritten _ hr => cases hr
  · intro hc hd
    rw [E.loadCatalog R.shows, E.loadCatalog hs]
    change Except.ok (Declaration.apply _ _ _) = _
    rw [Effect.declaration_of_kept hc hd, Declaration.apply]

/-- Behind a statement on another table, a statement reads what it would have read before. -/
theorem executeAfter_realizes {e : Effect} (he : Effect.of keep (v.place room s.table) ids s = e)
    {text' : String} {s' : Statement} (hp' : parse text' = .ok s') (hne : s'.table ≠ s.table) :
    Outcome.Realizes Shows (e.apply s.table v) (ids.skip e.drawn) s'.table
      (.of keep (v.place room s'.table) (ids.skip e.drawn) s')
      (executeAfter store ids text text') := by
  have R := execute_realizes ids E hn hs hp
  rw [he] at R
  have R' := execute_realizes (execute store ids text).ids E R.named R.shows hp'
  rw [Effect.place_apply _ hne, R.ids] at R'
  rw [executeAfter, R.ids]
  exact R'

end

include E in
theorem exists_effects (hv : v.Consistent ids) (s₁ s₂ : Statement) :
    ∃ (e₁ e₂ : Effect) (ρ : Equiv.Perm RecordId), ids.Exchanges e₁.drawn e₂.drawn ρ ∧
      (∀ table, (v.place room table).Fixed ρ) ∧
      .of keep (v.place room s₁.table) ids s₁ = e₁ ∧
      .of keep (v.place room s₂.table) (ids.skip e₁.drawn) s₂ = e₂ ∧
      .of keep (v.place room s₂.table) ids s₂ = e₂.rename ρ ∧
      .of keep (v.place room s₁.table) (ids.skip e₂.drawn) s₁ = e₁.rename ρ := by
  obtain ⟨e₁, he₁⟩ : ∃ e, Effect.of keep (v.place room s₁.table) ids s₁ = e := ⟨_, rfl⟩
  obtain ⟨e₂, he₂⟩ : ∃ e, Effect.of keep (v.place room s₂.table) (ids.skip e₁.drawn) s₂ = e :=
    ⟨_, rfl⟩
  obtain ⟨ρ, hρ⟩ := ids.exists_exchanges e₁.drawn e₂.drawn
  have hk (r : Record) : keep (r.rename ρ) = (keep r).rename ρ := by
    rw [Record.rename, E.keep_withId, Record.rename, E.id_keep]
  have hfixed (table : String) : (v.place room table).Fixed ρ :=
    fun records hr => hρ.fixes (hv.stored hr).numbered
  refine ⟨e₁, e₂, ρ, hρ, hfixed, he₁, he₂, ?_, ?_⟩
  · subst he₂
    exact Effect.of_carries hk (hfixed _) hρ.second
  · subst he₁
    exact Effect.of_carries hk (hfixed _) hρ.first

include E in
theorem interchangeable (hs : Shows store v) (hv : v.Consistent ids) {text₁ text₂ : String}
    {s₁ s₂ : Statement} (h₁ : parse text₁ = .ok s₁) (h₂ : parse text₂ = .ok s₂)
    (hne : s₁.table ≠ s₂.table) : Interchangeable store ids text₁ text₂ s₁ s₂ := by
  obtain ⟨e₁, e₂, ρ, hρ, hfixed, he₁, he₁₂, he₂, he₂₁⟩ := exists_effects E hv s₁ s₂
  have R₁ := execute_realizes ids E hv.named hs h₁
  have R₂ := execute_realizes ids E hv.named hs h₂
  have R₁₂ := executeAfter_realizes E hs hv.named h₁ he₁ h₂ hne.symm
  have R₂₁ : Outcome.Realizes Shows ((e₂.rename ρ).apply s₂.table v) (ids.skip e₂.drawn) s₁.table
      (.of keep (v.place room s₁.table) (ids.skip e₂.drawn) s₁)
      (executeAfter store ids text₂ text₁) :=
    executeAfter_realizes E hs hv.named h₂ he₂ h₁ hne
  rw [he₁] at R₁
  rw [he₂] at R₂
  rw [he₁₂] at R₁₂
  rw [he₂₁] at R₂₁
  refine ⟨?_, ?_, ?_, ?_, ?_, ⟨ρ, ?_, ?_⟩, ?_⟩
  · exact R₂₁.result.trans R₁.result.symm
  · exact R₂₁.warnings.trans R₁.warnings.symm
  · exact R₁₂.result.trans R₂.result.symm
  · exact R₁₂.warnings.trans R₂.warnings.symm
  · rw [R₁₂.ids, R₂₁.ids]
    exact congrArg (IdSource.mk _ _) (Nat.add_right_comm ..)
  · rw [R₁₂.ids]
    exact hρ.fresh
  · apply sameTables_of_shows E R₁₂.shows R₂₁.shows
    exact Effect.tables_rename_comm hne hfixed e₁ e₂
  · have hsame := Declaration.schema?_comm hne e₁.declaration e₂.declaration v.catalog
    refine ⟨_, _, _, E.loadCatalog hs, E.loadCatalog R₁₂.shows, E.loadCatalog R₂₁.shows,
      OrderedMap.perm_of_get? hsame, ?_⟩
    intro hnot
    refine Declaration.apply_comm hne e₁.declaration e₂.declaration v.catalog ?_
    intro hd₁ hd₂
    by_contra hm
    rw [not_or] at hm
    rw [← he₁] at hd₁
    rw [← he₁₂] at hd₂
    exact hnot ⟨Effect.adds_of_declared hd₁ hm.1, Effect.adds_of_declared hd₂ hm.2⟩

include E in
theorem separate_ofTexts (hs : Shows store v) (hv : v.Consistent ids) (texts : List String) :
    Separate (Run.ofTexts store ids texts).store (Run.ofTexts store ids texts).ids := by
  obtain ⟨v', hs', hv'⟩ := exists_view_ofTexts E.toFaithful hs hv texts
  constructor
  · intro text s hp
    exact confined E hs' hv'.named hp
  · intro text₁ text₂ s₁ s₂ h₁ h₂ hne
    exact interchangeable E hs' hv' h₁ h₂ hne

end

/-- After any run, from the empty store in memory or from a store opened in a directory that is
empty when it is found or made, statements on different tables do not interfere. -/
theorem run_separate (ids : IdSource) (texts : List String) :
    Separate (Run.ofTexts MemoryStore.empty ids texts).store
        (Run.ofTexts MemoryStore.empty ids texts).ids ∧
      ∀ (directory : String) (style : Json.Style) (files : FileSystem) (store : DirectoryStore),
        (files.makeDirectories ⟨directory⟩).2.IsEmptyDirectory ⟨directory⟩ →
        (DirectoryStore.openIn (.standard directory style) files).1 = .ok store →
        Separate (Run.ofTexts store ids texts).store (Run.ofTexts store ids texts).ids := by
  constructor
  · exact separate_ofTexts MemoryStore.exact MemoryStore.shows_empty (.empty ids) texts
  · intro directory style files store he ho
    have hs := DirectoryStore.showsIn_empty_of_openIn he ho
    exact separate_ofTexts (DirectoryStore.exact ⟨directory⟩) hs (.empty ids) texts

/-- Rows go into one table before or after another one is made. -/
theorem run_separate_in_empty_directory :
    let files := FileSystem.empty.put ["data"] .directory
    let store : DirectoryStore := ⟨.standard "data" .pretty,
      files.put ["data", ".schema.json"] (.file "\x7b\x7d")⟩
    let r := Run.ofTexts store ⟨0, 0, 0⟩ ["CREATE TABLE t (a FLOAT)"]
    let insert : Statement := .insert ⟨"t", none, [[.integer 1], [.null]]⟩
    let create : Statement := .create ⟨"u", [("b", .text)]⟩
    (DirectoryStore.openIn (.standard "data" .pretty) files).1 = .ok store ∧
      (execute r.store r.ids "INSERT INTO t VALUES (1), (NULL)").Confined r.store insert ∧
      Interchangeable r.store r.ids "INSERT INTO t VALUES (1), (NULL)" "CREATE TABLE u (b TEXT)"
        insert create ∧
      (execute r.store r.ids "INSERT INTO t VALUES (1), (NULL)").result =
        .ok (.status "2 rows inserted") := by
  intro files store r insert create
  have he : files.IsEmptyDirectory ⟨"data"⟩ := ⟨["data"], by decide, fun name => rfl⟩
  have ho : (DirectoryStore.openIn (.standard "data" .pretty) files).1 = .ok store := by
    decide +kernel
  have hi : parse "INSERT INTO t VALUES (1), (NULL)" = .ok insert := by decide +kernel
  have hc : parse "CREATE TABLE u (b TEXT)" = .ok create := by decide +kernel
  obtain ⟨-, hopened⟩ := run_separate ⟨0, 0, 0⟩ ["CREATE TABLE t (a FLOAT)"]
  have hr : Separate r.store r.ids := hopened "data" .pretty files store he.makeDirectories ho
  have hboth := hr.interchangeable hi hc (by decide)
  have hresult : (execute r.store r.ids "INSERT INTO t VALUES (1), (NULL)").result =
      .ok (.status "2 rows inserted") := by
    rw [execute_of_parse_ok hi]
    decide +kernel
  exact ⟨ho, hr.confined hi, hboth, hresult⟩

end Engine

end DocBase
