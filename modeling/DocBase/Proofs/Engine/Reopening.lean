import DocBase.Proofs.Engine.Matching
import DocBase.Proofs.Engine.Separation

namespace DocBase

open DirectoryStore

namespace Engine

/-- What is done to a database: a text is run, or its directory is opened again. -/
inductive Step
  | run (text : String)
  | reopen (style : Json.Style) (ids : IdSource)
deriving DecidableEq

def Step.isRun : Step → Bool
  | run _ => true
  | reopen _ _ => false

/-- A database in the course of what is done to it: the results and the warnings of the texts, the
errors met in opening, and the identifiers given out. -/
structure Trace where
  store : DirectoryStore
  ids : IdSource
  answers : List (Except QueryError ResultSet × List Warning)
  refusals : List StorageError
  drawn : List RecordId

namespace Trace

def start (store : DirectoryStore) (ids : IdSource) : Trace := ⟨store, ids, [], [], []⟩

/-- A text runs on the store that was opened last. If opening fails, that one stays in use. -/
def next (t : Trace) : Step → Trace
  | .run text =>
    let o := execute t.store t.ids text
    ⟨o.store, o.ids, t.answers ++ [(o.result, o.warnings)], t.refusals,
      t.drawn ++ t.ids.following (o.ids.count - t.ids.count)⟩
  | .reopen style ids =>
    match (openIn (.standard t.store.config.directory style) t.store.files).1 with
    | .ok store => { t with store := store, ids := ids }
    | .error e => { t with ids := ids, refusals := t.refusals ++ [e] }

def ofSteps (store : DirectoryStore) (ids : IdSource) (steps : List Step) : Trace :=
  steps.foldl next (start store ids)

theorem isRun_of_mem_map {texts : List String} {step : Step} (h : step ∈ texts.map .run) :
    step.isRun := by
  obtain ⟨text, -, rfl⟩ := List.mem_map.1 h
  rfl

theorem exists_grown_next (t : Trace) (step : Step) :
    ∃ answers drawn, (t.next step).answers = t.answers ++ answers ∧
      (t.next step).drawn = t.drawn ++ drawn := by
  cases step with
  | run text => exact ⟨_, _, rfl, rfl⟩
  | reopen style ids =>
    refine ⟨[], [], ?_, ?_⟩ <;>
    · rw [next, List.append_nil]
      split <;> rfl

theorem exists_grown_foldl (t : Trace) (steps : List Step) :
    ∃ answers drawn, (steps.foldl next t).answers = t.answers ++ answers ∧
      (steps.foldl next t).drawn = t.drawn ++ drawn := by
  induction steps generalizing t with
  | nil => exact ⟨[], [], (List.append_nil _).symm, (List.append_nil _).symm⟩
  | cons step steps ih =>
    obtain ⟨answers, drawn, ha, hd⟩ := exists_grown_next t step
    obtain ⟨answers', drawn', ha', hd'⟩ := ih (t.next step)
    refine ⟨answers ++ answers', drawn ++ drawn', ?_, ?_⟩
    · rw [List.foldl_cons, ha', ha, List.append_assoc]
    · rw [List.foldl_cons, hd', hd, List.append_assoc]

theorem next_reopen {styles : Json.Style → Prop} {directory : String} {location : Location}
    {t : Trace} (h : t.store.OpenedIn styles directory location) (style : Json.Style)
    (ids : IdSource) : t.next (.reopen style ids) =
      { t with store := ⟨.standard directory style, t.store.files⟩, ids := ids } := by
  rw [next, h.directory_eq, h.openIn_eq]

/-- Two courses of a database have come to the same. -/
structure Mirrors (styles : Json.Style → Prop) (directory : String) (location : Location)
    (Q : RecordId → RecordId → Prop) (p t : Trace) : Prop where
  answers : t.answers = p.answers
  refusals : t.refusals = []
  length : p.drawn.length = t.drawn.length
  stores : Counterparts styles directory location (Along Q p.drawn t.drawn) p.store t.store

section
variable {styles : Json.Style → Prop} {directory : String} {location : Location}
  {Q : RecordId → RecordId → Prop} {p t : Trace}

theorem Mirrors.run (h : Mirrors styles directory location Q p t)
    (hQ : Relator.BiUnique (Along Q p.drawn t.drawn)) (text : String) :
    Mirrors styles directory location Q (p.next (.run text)) (t.next (.run text)) := by
  have ho := execute_mirrors (mirrors styles directory location) hQ h.stores p.ids t.ids text
  obtain ⟨n, hids, hids', hstores⟩ := ho.store
  have hn : (execute p.store p.ids text).ids.count - p.ids.count = n := by
    rw [hids]
    exact Nat.add_sub_cancel_left ..
  have hn' : (execute t.store t.ids text).ids.count - t.ids.count = n := by
    rw [hids']
    exact Nat.add_sub_cancel_left ..
  rw [Given, along_append h.length] at hstores
  constructor
  · change t.answers ++ _ = p.answers ++ _
    rw [h.answers, ho.result, ho.warnings]
  · exact h.refusals
  · change (p.drawn ++ _).length = (t.drawn ++ _).length
    rw [hn, hn', List.length_append, List.length_append, h.length, IdSource.length_following,
      IdSource.length_following]
  · rw [next, next]
    dsimp only
    rw [hn, hn']
    exact hstores

theorem Mirrors.reopen (h : Mirrors styles directory location Q p t) {style : Json.Style}
    (hs : styles style) (ids : IdSource) :
    Mirrors styles directory location Q p (t.next (.reopen style ids)) := by
  rw [next_reopen h.stores.right]
  exact ⟨h.answers, h.refusals, h.length, h.stores.restyle hs⟩

/-- Step by step the one course follows the other, which leaves out every opening. -/
theorem Mirrors.foldl {steps : List Step} (h : Mirrors styles directory location Q p t)
    (hs : ∀ style ids, .reopen style ids ∈ steps → styles style)
    (hQ : Relator.BiUnique (Along Q ((steps.filter Step.isRun).foldl next p).drawn
      (steps.foldl next t).drawn)) :
    Mirrors styles directory location Q ((steps.filter Step.isRun).foldl next p)
      (steps.foldl next t) := by
  induction steps generalizing p t with
  | nil => exact h
  | cons step steps ih =>
    have hrest (style : Json.Style) (ids : IdSource) (hm : .reopen style ids ∈ steps) :
        styles style := hs style ids (.tail _ hm)
    cases step with
    | run text =>
      have hsub : Relator.BiUnique (Along Q p.drawn t.drawn) := by
        obtain ⟨-, more, -, hm⟩ := exists_grown_foldl p (.run text :: steps.filter Step.isRun)
        obtain ⟨-, more', -, hm'⟩ := exists_grown_foldl t (.run text :: steps)
        apply biUnique_of_append h.length
        rw [← hm, ← hm']
        exact hQ
      exact ih (h.run hsub text) hrest hQ
    | reopen style ids => exact ih (h.reopen (hs style ids (.head _)) ids) hrest hQ

end

theorem exists_following_foldl {steps : List Step} (h : ∀ step ∈ steps, step.isRun) (t : Trace) :
    ∃ n, (steps.foldl next t).ids = t.ids.skip n ∧
      (steps.foldl next t).drawn = t.drawn ++ t.ids.following n := by
  induction steps generalizing t with
  | nil => exact ⟨0, rfl, (List.append_nil _).symm⟩
  | cons step steps ih =>
    cases step with
    | reopen style ids => cases h _ (.head _)
    | run text =>
      obtain ⟨m, hm⟩ := exists_ids_execute t.store t.ids text
      obtain ⟨n, hi, hd⟩ := ih (fun step hs => h step (.tail _ hs)) (t.next (.run text))
      have hids : (t.next (.run text)).ids = t.ids.skip m := hm
      have hdrawn : (t.next (.run text)).drawn = t.drawn ++ t.ids.following m := by
        rw [next, hm]
        exact congrArg (t.drawn ++ t.ids.following ·) (Nat.add_sub_cancel_left ..)
      refine ⟨m + n, ?_, ?_⟩
      · rw [List.foldl_cons, hi, hids, IdSource.skip, IdSource.skip, IdSource.skip, Nat.add_assoc]
      · rw [List.foldl_cons, hd, hdrawn, hids, IdSource.following_add, List.append_assoc]

theorem following_foldl {steps : List Step} (h : ∀ step ∈ steps, step.isRun)
    (store : DirectoryStore) (ids : IdSource) : ids.following
      ((steps.foldl next (start store ids)).ids.count - ids.count) =
        (steps.foldl next (start store ids)).drawn := by
  obtain ⟨n, hi, hd⟩ := exists_following_foldl h (start store ids)
  rw [hi, hd]
  exact congrArg ids.following (Nat.add_sub_cancel_left ..)

theorem nodup_drawn_of_runs {steps : List Step} (h : ∀ step ∈ steps, step.isRun)
    (store : DirectoryStore) (ids : IdSource) : (ofSteps store ids steps).drawn.Nodup := by
  obtain ⟨n, -, hn⟩ := exists_following_foldl h (start store ids)
  rw [ofSteps, hn]
  exact ids.nodup_following n

end Trace

/-- Records that match are the same under a renaming that takes each identifier to the one that
stands for it. -/
theorem map_rename_of_matching {Q : RecordId → RecordId → Prop} {ρ : RecordId → RecordId}
    (hρ : ∀ a b, Q a b → ρ a = b) {records records' : List Record}
    (h : Matching Q records records') : records' = records.map (Record.rename ρ) := by
  rw [eq_comm, ← List.forall₂_eq_eq_eq, List.forall₂_map_left_iff]
  apply List.Forall₂.imp _ h
  intro a b hab
  rw [Record.rename, hρ _ _ hab.id, hab.fields]

theorem sameTables_of_mirrors {σ : Type} [Store σ]
    {R : (RecordId → RecordId → Prop) → σ → σ → Prop} (M : Mirrors σ R)
    {Q : RecordId → RecordId → Prop} {store store' : σ} (h : R Q store store')
    {ρ : RecordId → RecordId} (hρ : ∀ a b, Q a b → ρ a = b) : SameTables ρ store store' where
  tableExists := M.tableExists h
  loadTable table := by
    apply (M.loadTable h table).elim
    · intro records records' hl hl' hm
      rw [hl, hl', map_rename_of_matching hρ hm]
      rfl
    · intro e he he'
      rw [he, he']
      rfl

theorem exists_counterparts_of_openIn {directory : String} {style : Json.Style}
    {files : FileSystem} {store : DirectoryStore} (Q : RecordId → RecordId → Prop)
    (he : (files.makeDirectories ⟨directory⟩).2.IsEmptyDirectory ⟨directory⟩)
    (ho : (openIn (.standard directory style) files).1 = .ok store) (style' : Json.Style) :
    ∃ location, Counterparts (fun _ => True) directory location Q
      ⟨.standard directory style', store.files⟩ store := by
  obtain ⟨location, h⟩ := openedIn_of_openIn ho
  have hplain : OpenedIn (fun _ => True) directory location
      ⟨.standard directory style', store.files⟩ := h.restyle trivial
  have hshows := shows_empty_of_openIn he (openIn_restyle ho style')
  have hstore : (⟨.standard directory style, store.files⟩ : DirectoryStore) = store := by
    rw [← config_of_openIn ho]
  have hself := hplain.counterparts (Q := Q) fun table records hl => by
    cases (faithful.loadTable hshows).1 hl
  rw [← hstore]
  exact ⟨location, hself.restyle trivial⟩

/-- However often the directory of a database is opened again in the course of its use, and in
whatever style, every text is answered as if it had stayed open in the compact style, and the tables
and the catalog are the same in the end, but for the identifiers given out. -/
theorem reopening_invisible (directory : String) (style : Json.Style) (files : FileSystem)
    (store : DirectoryStore) (ids ids' : IdSource) (steps : List Step)
    (he : (files.makeDirectories ⟨directory⟩).2.IsEmptyDirectory ⟨directory⟩)
    (ho : (openIn (.standard directory style) files).1 = .ok store)
    (hd : (Trace.ofSteps store ids' steps).drawn.Nodup) :
    ∃ plain, (openIn (.standard directory .compact) files).1 = .ok plain ∧
      let t := Trace.ofSteps store ids' steps
      let p := Trace.ofSteps plain ids (steps.filter Step.isRun)
      t.refusals = [] ∧ t.answers = p.answers ∧
        Store.loadCatalog t.store = Store.loadCatalog p.store ∧
        ∃ ρ : Equiv.Perm RecordId, p.drawn.map ρ = t.drawn ∧ SameTables ρ p.store t.store := by
  refine ⟨_, openIn_restyle ho .compact, ?_⟩
  intro t p
  have hp : p.drawn.Nodup :=
    Trace.nodup_drawn_of_runs (fun _ hm => (List.mem_filter.1 hm).2) _ ids
  -- Nothing is stored at the start, so identifiers stand for each other as they are given out.
  obtain ⟨location, hstart⟩ :=
    exists_counterparts_of_openIn (Along (Known fun _ => False) [] []) he ho .compact
  have hbegin : Trace.Mirrors (fun _ => True) directory location (Known fun _ => False)
      (.start ⟨.standard directory .compact, store.files⟩ ids) (.start store ids') :=
    ⟨rfl, rfl, rfl, hstart⟩
  have hmirrors : Trace.Mirrors (fun _ => True) directory location (Known fun _ => False) p t :=
    hbegin.foldl (fun _ _ _ => trivial) (biUnique_along hp hd (fun _ _ => id) fun _ _ => id)
  obtain ⟨ρ, hρ, -⟩ := exists_perm_map_eq hmirrors.length hp hd
  refine ⟨hmirrors.refusals, hmirrors.answers, (mirrors _ _ _).loadCatalog hmirrors.stores, ρ, hρ,
    sameTables_of_mirrors (mirrors _ _ _) hmirrors.stores ?_⟩
  intro a b hab
  rcases hab with ⟨-, hk⟩ | hab
  · cases hk
  · exact eq_of_mem_zip_map hρ hab

/-- A table is made, filled and read, with the directory opened again before each text. -/
theorem reopening_invisible_before_each_text :
    let files := FileSystem.empty.put ["data"] .directory
    let store : DirectoryStore := ⟨.standard "data" .compact,
      files.put ["data", ".schema.json"] (.file "\x7b\x7d")⟩
    let steps : List Step := [.reopen .pretty ⟨1, 0, 0⟩, .run "CREATE TABLE t (a FLOAT)",
      .reopen .compact ⟨2, 0, 0⟩, .run "INSERT INTO t VALUES (1), (NULL)",
      .reopen .pretty ⟨3, 0, 0⟩, .run "SELECT a FROM t WHERE a = 1"]
    let t := Trace.ofSteps store ⟨4, 0, 0⟩ steps
    let p := Trace.ofSteps store ⟨0, 0, 0⟩ (steps.filter Step.isRun)
    t.drawn.Nodup ∧ t.answers = p.answers ∧ t.drawn ≠ p.drawn ∧
      ∃ ρ : Equiv.Perm RecordId, p.drawn.map ρ = t.drawn ∧ SameTables ρ p.store t.store := by
  intro files store steps t p
  have he : files.IsEmptyDirectory ⟨"data"⟩ := ⟨["data"], by decide, fun name => rfl⟩
  have ho : (openIn (.standard "data" .compact) files).1 = .ok store := by decide +kernel
  have hdrawn : t.drawn.Nodup ∧ t.drawn ≠ p.drawn := by decide +kernel
  obtain ⟨plain, hplain, -, hanswers, -, hsame⟩ := reopening_invisible "data" .compact files store
    ⟨0, 0, 0⟩ ⟨4, 0, 0⟩ steps he.makeDirectories ho hdrawn.1
  rw [ho] at hplain
  cases hplain
  exact ⟨hdrawn.1, hanswers, hdrawn.2, hsame⟩

end Engine

end DocBase
