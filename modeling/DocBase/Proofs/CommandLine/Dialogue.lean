import DocBase.Proofs.CommandLine.Answers
import DocBase.Proofs.CommandLine.History
import DocBase.Proofs.CommandLine.Options
import DocBase.Proofs.Engine.Documents

namespace DocBase

namespace CommandLine

open DirectoryStore Engine

/-- Runs queries one after the other, each on the files that the one before it left. -/
def runQueries (options : List String) (environment : Option String) :
    FileSystem → List (String × IdSource) → List Finish × FileSystem
  | files, [] => ([], files)
  | files, (text, ids) :: queries =>
    let f := run ⟨options ++ ["query", "--", text], environment, files, ids⟩ ""
    let (fs, files) := runQueries options environment f.files queries
    (f :: fs, files)

def Finish.drawn (f : Finish) (ids : IdSource) : List RecordId :=
  ids.following (f.ids.count - ids.count)

def drawnBy (queries : List (String × IdSource)) (fs : List Finish) : List RecordId :=
  (List.zipWith (fun query f => Finish.drawn f query.2) queries fs).flatten

/-- Queries as what they do to a database: its directory is opened again before each text. -/
def stepsOf (style : Json.Style) (queries : List (String × IdSource)) : List Step :=
  queries.flatMap fun query => [.reopen style query.2, .run query.1]

theorem filter_isRun_stepsOf (style : Json.Style) (queries : List (String × IdSource)) :
    (stepsOf style queries).filter Step.isRun = (queries.map Prod.fst).map .run := by
  induction queries with
  | nil => rfl
  | cons query queries ih =>
    rw [stepsOf, List.flatMap_cons, List.filter_append, List.map_cons, List.map_cons]
    exact congrArg (.run query.1 :: ·) ih

theorem style_of_mem_stepsOf {style style' : Json.Style} {queries : List (String × IdSource)}
    {ids : IdSource} (h : .reopen style' ids ∈ stepsOf style queries) : style' = style := by
  obtain ⟨query, -, hm⟩ := List.mem_flatMap.1 h
  simp only [List.mem_cons, List.not_mem_nil, or_false, Step.reopen.injEq] at hm
  rcases hm with ⟨hs, -⟩ | hm
  · exact hs
  · cases hm

theorem exists_grown_of_take (style : Json.Style) (queries : List (String × IdSource)) (n : Nat)
    (t : Trace) : ∃ answers drawn,
      ((stepsOf style queries).foldl Trace.next t).answers =
        ((stepsOf style (queries.take n)).foldl Trace.next t).answers ++ answers ∧
      ((stepsOf style queries).foldl Trace.next t).drawn =
        ((stepsOf style (queries.take n)).foldl Trace.next t).drawn ++ drawn := by
  have hsteps : stepsOf style queries =
      stepsOf style (queries.take n) ++ stepsOf style (queries.drop n) := by
    rw [stepsOf, stepsOf, stepsOf, ← List.flatMap_append, List.take_append_drop]
  rw [hsteps, List.foldl_append]
  exact Trace.exists_grown_foldl _ _

theorem database_openIn {o : Options} {files : FileSystem} {store : DirectoryStore}
    (hopen : openIn (.standard o.directory o.style) files = (.ok store, store.files))
    (ids : IdSource) : Database.openIn o files ids = (.ok (o.database store ids), store.files) := by
  rw [Options.style] at hopen
  rw [Database.openIn, hopen]
  rfl

section
variable {environment : Option String} {options : List String} {g : Given} {o : Options}
  (hg : Given.Reads .none options g)
  (ho : readOptions? environment (options ++ ["shell"]) = some o)
  (hlog : o.logFilter.panics = false)
include hg ho hlog

theorem run_query {files : FileSystem} {store : DirectoryStore}
    (hopen : openIn (.standard o.directory o.style) files = (.ok store, store.files))
    (ids : IdSource) (text input : String) :
    let f := runQuery { o with command := .query text } (o.database store ids) text
    run ⟨options ++ ["query", "--", text], environment, files, ids⟩ input =
      { f with errors := unlines o.logFilter.complaints ++ f.errors } := by
  have hdb : Database.openIn { o with command := .query text } files ids =
      (.ok (o.database store ids), store.files) := database_openIn hopen ids
  have hlog' : Options.logFilter { o with command := .query text } = o.logFilter := rfl
  intro f
  rw [run, (readOptions?_query hg ho text).2]
  dsimp only
  rw [hlog', hlog, start, hdb]
  rfl

theorem run_query_follows {location : Location} {t : Trace}
    (h : t.store.OpenedIn (· = o.style) o.directory location) (ids : IdSource) (text : String) :
    let f := run ⟨options ++ ["query", "--", text], environment, t.store.files, ids⟩ ""
    let t' := (t.next (.reopen o.style ids)).next (.run text)
    t'.store.OpenedIn (· = o.style) o.directory location ∧ f.files = t'.store.files ∧
      t'.drawn = t.drawn ++ f.drawn ids ∧
      ∃ answer, t'.answers = t.answers ++ [answer] ∧ o.EndsWith answer f := by
  intro f t'
  generalize hs : (⟨.standard o.directory o.style, t.store.files⟩ : DirectoryStore) = store
  have hopened : store.OpenedIn (· = o.style) o.directory location := by
    rw [← hs]
    exact h.restyle rfl
  obtain ⟨hfiles, hids, hends⟩ := query_endsWith hopened ids text
  have hf : f = _ := run_query hg ho hlog (h.openIn_eq o.style) ids text ""
  have ht : t' = _ := congrArg (Trace.next · (.run text)) (Trace.next_reopen h o.style ids)
  rw [hs] at hf ht
  rw [hf, ht]
  refine ⟨openedIn_execute hopened ids text, hfiles, ?_, _, rfl, hends.congr rfl rfl⟩
  exact congrArg (fun n => t.drawn ++ ids.following (n.count - ids.count)) hids.symm

theorem runQueries_follows {location : Location} {t : Trace}
    (h : t.store.OpenedIn (· = o.style) o.directory location)
    (queries : List (String × IdSource)) :
    let r := runQueries options environment t.store.files queries
    let t' := (stepsOf o.style queries).foldl Trace.next t
    r.2 = t'.store.files ∧ t'.drawn = t.drawn ++ drawnBy queries r.1 ∧
      ∃ answers, t'.answers = t.answers ++ answers ∧ List.Forall₂ o.EndsWith answers r.1 := by
  induction queries generalizing t with
  | nil => exact ⟨rfl, (List.append_nil _).symm, [], (List.append_nil _).symm, .nil⟩
  | cons query queries ih =>
    obtain ⟨text, ids⟩ := query
    obtain ⟨hopened, hfiles, hdrawn, answer, hanswer, hends⟩ :=
      run_query_follows hg ho hlog h ids text
    obtain ⟨hlast, hdrawn', answers, hanswers, hall⟩ := ih hopened
    rw [← hfiles] at hlast hdrawn' hall
    refine ⟨hlast, ?_, answer :: answers, ?_, .cons hends hall⟩
    · rw [hdrawn, List.append_assoc] at hdrawn'
      exact hdrawn'
    · rw [hanswer, List.append_assoc] at hanswers
      exact hanswers

/-- The first query opens the database, and from then on it is there to be opened. -/
theorem runQueries_openIn {files : FileSystem} {store : DirectoryStore} {location : Location}
    (hopen : openIn (.standard o.directory o.style) files = (.ok store, store.files))
    (h : store.OpenedIn (· = o.style) o.directory location)
    (queries : List (String × IdSource)) :
    let r := runQueries options environment files queries
    runQueries options environment store.files queries =
      (r.1, if queries.isEmpty then store.files else r.2) := by
  have hagain : openIn (.standard o.directory o.style) store.files = (.ok store, store.files) := by
    rw [h.openIn_eq, ← config_of_openIn (congrArg Prod.fst hopen)]
  cases queries with
  | nil => rfl
  | cons query queries =>
    rw [runQueries, runQueries, run_query hg ho hlog hopen, run_query hg ho hlog hagain]
    rfl

theorem queries_follow {files : FileSystem} {store : DirectoryStore} {location : Location}
    (hopen : openIn (.standard o.directory o.style) files = (.ok store, store.files))
    (h : store.OpenedIn (· = o.style) o.directory location) (ids : IdSource)
    (queries : List (String × IdSource)) :
    let r := runQueries options environment files queries
    let t := (stepsOf o.style queries).foldl Trace.next (.start store ids)
    (if queries.isEmpty then store.files else r.2) = t.store.files ∧
      drawnBy queries r.1 = t.drawn ∧ List.Forall₂ o.EndsWith t.answers r.1 := by
  obtain ⟨hfiles, hdrawn, answers, hanswers, hall⟩ :=
    runQueries_follows hg ho hlog (t := .start store ids) h queries
  change (runQueries options environment store.files queries).2 = _ at hfiles
  change _ = [] ++ drawnBy queries (runQueries options environment store.files queries).1 at hdrawn
  change List.Forall₂ _ _ (runQueries options environment store.files queries).1 at hall
  rw [runQueries_openIn hg ho hlog hopen h] at hfiles hdrawn hall
  intro r t
  refine ⟨hfiles, hdrawn.symm, ?_⟩
  rw [hanswers]
  exact hall

theorem run_shell {files : FileSystem} {store : DirectoryStore}
    (hopen : openIn (.standard o.directory o.style) files = (.ok store, store.files))
    (ids : IdSource) (input : String) :
    let f := run ⟨options ++ ["shell"], environment, files, ids⟩ input
    let course := Shell.run ⟨o.database store ids, .loaded store.files⟩ (Shell.linesOf input)
    f.ids = course.shell.database.ids ∧
      if course.panicked then f.code = panicCode
      else f.code = 0 ∧ f.files = course.shell.finish.2 ∧ f.output = unlines (Shell.welcome ::
        (History.complaint "loading" (History.load store.files) ++ course.output ++
          course.shell.finish.1)) := by
  have hcommand : o.command = .shell := (readOptions?_query hg ho "").1
  intro f course
  have hf : f = run ⟨options ++ ["shell"], environment, files, ids⟩ input := rfl
  rw [run, ho] at hf
  dsimp only at hf
  rw [hlog, if_neg Bool.false_ne_true, start, database_openIn hopen ids] at hf
  dsimp only at hf
  rw [beginCommand, hcommand] at hf
  dsimp only at hf
  rw [Shell.start_eq] at hf
  dsimp only at hf
  rw [runShell] at hf
  rw [hf]
  have hcourse : Shell.run ⟨o.database store ids, .loaded (o.database store ids).store.files⟩
      (Shell.linesOf input) = course := rfl
  rw [hcourse]
  split
  · exact ⟨rfl, rfl⟩
  · exact ⟨rfl, rfl, rfl, rfl⟩

section
variable {files : FileSystem} {store : DirectoryStore} {location : Location} {lines : List String}
  (hopen : openIn (.standard o.directory o.style) files = (.ok store, store.files))
  (h : store.OpenedIn (· = o.style) o.directory location) (ids : IdSource)
  (hn : ∀ line ∈ lines, '\n' ∉ line.toList)
  (hb : ∀ line ∈ lines, (Shell.typed? line).isSome)
  (hl : ∀ line ∈ lines, Shell.IsStatement (Shell.typed line))
include hopen h hn hb hl

theorem shell_follows :
    let f := run ⟨options ++ ["shell"], environment, files, ids⟩ (unlines lines)
    let t := ((lines.map Shell.typed).map Step.run).foldl Trace.next (.start store ids)
    f.code ≠ panicCode →
      f.code = 0 ∧ f.drawn ids = t.drawn ∧
      (∃ s : Shell, s.database.store = t.store ∧ f.files = s.finish.2) ∧
      ∃ replies, (∀ answer ∈ t.answers, o.canTell answer) ∧ List.Forall₂ o.Tells t.answers replies ∧
        f.output = unlines (Shell.welcome ::
          (History.complaint "loading" (History.load store.files) ++ replies ++ "CTRL-D" ::
            if lines.isEmpty then [] else
              History.complaint "saving" (store.files.write History.file ""))) := by
  obtain ⟨texts, htexts, hgets⟩ := Shell.exists_texts hb
  obtain ⟨hids, hends⟩ := run_shell hg ho hlog hopen ids (unlines lines)
  rw [Shell.linesOf_unlines hn, htexts] at hids hends
  have hrun := run_gets hgets hl (t := .start store ids) h (.loaded store.files)
  intro f t hcode
  split at hends
  · exact absurd hends hcode
  · next hp =>
    obtain ⟨hcode, hfiles, houtput⟩ := hends
    obtain ⟨hlast, replies, answers, hreplies, hanswers, hcan, hall⟩ :=
      hrun (Bool.eq_false_iff.2 hp)
    change (Shell.run ⟨o.database store ids, .loaded store.files⟩ (texts.map some)).shell = _
      at hlast
    change (Shell.run ⟨o.database store ids, .loaded store.files⟩ (texts.map some)).output = _
      at hreplies
    generalize Shell.run ⟨o.database store ids, .loaded store.files⟩ (texts.map some) = course at *
    have hstore : course.shell.database.store = t.store := congrArg (·.database.store) hlast
    change t.answers = [] ++ answers at hanswers
    rw [List.nil_append] at hanswers
    rw [← hanswers] at hcan hall
    refine ⟨hcode, ?_, ⟨course.shell, hstore, hfiles⟩, replies, hcan, hall, ?_⟩
    · have hids' : f.ids = t.ids := hids.trans (congrArg (·.database.ids) hlast)
      rw [Finish.drawn, hids']
      exact Trace.following_foldl (fun _ => Trace.isRun_of_mem_map) store ids
    · have hplaces : SamePlaces store course.shell.database.store := by
        rw [hstore]
        exact samePlaces_foldl (.start store ids) _
      have hhistory : course.shell.history = texts.foldl History.add (.loaded store.files) :=
        congrArg (·.history) hlast
      have hfarewell := course.shell.fst_finish hplaces.directories hhistory
        (Shell.ne_empty_of_gets hgets hl)
      rw [← Shell.isEmpty_of_gets hgets] at hfarewell
      rw [houtput, hreplies, hfarewell]
      simp only [List.append_assoc, List.cons_append, List.nil_append]

/-- A shell that panics has got as far as an answer that cannot be shown. -/
theorem shell_panics :
    let f := run ⟨options ++ ["shell"], environment, files, ids⟩ (unlines lines)
    f.code = panicCode → ∃ n,
      let t := (((lines.take n).map Shell.typed).map Step.run).foldl Trace.next (.start store ids)
      f.drawn ids = t.drawn ∧ ∃ answer ∈ t.answers, o.canTell answer = false := by
  obtain ⟨texts, htexts, hgets⟩ := Shell.exists_texts hb
  obtain ⟨hids, hends⟩ := run_shell hg ho hlog hopen ids (unlines lines)
  rw [Shell.linesOf_unlines hn, htexts] at hids hends
  intro f hcode
  split at hends
  · next hp =>
    obtain ⟨n, hlast, hanswer⟩ :=
      run_gets_of_panicked hgets hl (t := .start store ids) h (.loaded store.files) hp
    have hids' : f.ids = _ := hids.trans (congrArg Database.ids hlast)
    refine ⟨n, ?_, hanswer⟩
    rw [Finish.drawn, hids']
    exact Trace.following_foldl (fun _ => Trace.isRun_of_mem_map) store ids
  · rw [show f.code = 0 from hends.1] at hcode
    cases hcode

end

end

theorem sameDocuments_finish {ρ : RecordId → RecordId} {directory : String} {style : Json.Style}
    {location : Location} {s : Shell} {files : FileSystem}
    (hl : s.database.store.files.Leads ⟨directory⟩ location)
    (h : SameDocuments ρ (.standard directory style) s.database.store.files files) :
    SameDocuments ρ (.standard directory style) s.finish.2 files where
  catalog := h.catalog.trans (s.read_finish hl fileName_catalog (by decide)).symm
  tables {table} hn := by
    have hne : table ++ ".json" ≠ ".jsondb_history" := by
      intro he
      have hlast := congrArg (·.toList.getLast?) he
      simp at hlast
    have hread : s.finish.2.read (tablePath (.standard directory style) table) = _ :=
      s.read_finish hl (fileName_of_isTableName hn) hne
    rw [hread]
    exact h.tables hn

/-- A shell and single queries under the same options in the same place. Each line goes to the
shell, and as its backspaces leave it to a query of its own with identifiers of its own. -/
structure Dialogue where
  options : List String
  directory : Option String
  files : FileSystem
  ids : IdSource
  lines : List (String × IdSource)

namespace Dialogue

variable (d : Dialogue)

def shell : Finish :=
  run ⟨d.options ++ ["shell"], d.directory, d.files, d.ids⟩ (unlines (d.lines.map Prod.fst))

def texts : List (String × IdSource) := d.lines.map fun (line, ids) => (Shell.typed line, ids)

def queries : List Finish × FileSystem := runQueries d.options d.directory d.files d.texts

def shellIds : List RecordId := d.shell.drawn d.ids

def queryIds : List RecordId := drawnBy d.texts d.queries.1

/-- What the queries leave. If there are none, the directory has only been opened. -/
def left (store : DirectoryStore) : FileSystem :=
  if d.texts.isEmpty then store.files else d.queries.2

structure Agrees (o : Options) (store : DirectoryStore) : Prop where
  code : d.shell.code = 0
  output : ∃ replies, List.Forall₂ Finish.AgreesWith d.queries.1 replies ∧
    d.shell.output = unlines (Shell.welcome ::
      (History.complaint "loading" (History.load store.files) ++ replies ++ "CTRL-D" ::
        if d.lines.isEmpty then [] else
          History.complaint "saving" (store.files.write History.file "")))
  documents : ∃ ρ : Equiv.Perm RecordId, d.shellIds.map ρ = d.queryIds ∧
    (∀ id, id ∉ d.shellIds → id ∉ d.queryIds → ρ id = id) ∧
    SameDocuments ρ (.standard o.directory o.style) d.shell.files (d.left store)

end Dialogue

theorem forall₂_agreesWith {o : Options} {answers : List Answer} {fs : List Finish}
    {replies : List String} (hc : ∀ answer ∈ answers, o.canTell answer)
    (hf : List.Forall₂ o.EndsWith answers fs) (hr : List.Forall₂ o.Tells answers replies) :
    List.Forall₂ Finish.AgreesWith fs replies := by
  induction hf generalizing replies with
  | nil =>
    cases hr
    exact .nil
  | cons hf _ ih =>
    rw [List.forall_mem_cons] at hc
    cases hr with
    | cons hr hrs => exact .cons (agreesWith_of_answer hc.1 hf hr) (ih hc.2 hrs)

theorem canTell_of_forall₂ {o : Options} {answers : List Answer} {fs : List Finish}
    (hf : List.Forall₂ o.EndsWith answers fs) (hc : ∀ f ∈ fs, f.code ≠ panicCode) :
    ∀ answer ∈ answers, o.canTell answer := by
  induction hf with
  | nil => exact List.forall_mem_nil _
  | cons hf _ ih =>
    rw [List.forall_mem_cons] at hc ⊢
    refine ⟨?_, ih hc.2⟩
    by_contra hn
    exact hc.1 (hf.code_eq (Bool.eq_false_iff.2 hn))

def Stored (store : DirectoryStore) (id : RecordId) : Prop :=
  ∃ table records, Store.loadTable store table = .ok records ∧ ∃ r ∈ records, r.id = id

/-- Queries come to what their texts come to in a store that stays open, as long as no identifier
is given out twice. -/
theorem queries_mirror {o : Options} {location : Location} {store : DirectoryStore}
    (h : store.OpenedIn (· = o.style) o.directory location) (ids : IdSource)
    (queries : List (String × IdSource)) :
    let p := ((queries.map Prod.fst).map Step.run).foldl Trace.next (.start store ids)
    let t := (stepsOf o.style queries).foldl Trace.next (.start store ids)
    t.drawn.Nodup → (∀ id, id ∈ p.drawn ∨ id ∈ t.drawn → ¬ Stored store id) →
      Trace.Mirrors (· = o.style) o.directory location (Known (Stored store)) p t := by
  intro p t hd hnew
  have hp : p.drawn.Nodup :=
    Trace.nodup_drawn_of_runs (fun _ => Trace.isRun_of_mem_map) store ids
  have hQ : Relator.BiUnique (Along (Known (Stored store)) p.drawn t.drawn) :=
    biUnique_along hp hd (fun id hm => hnew id (.inl hm)) fun id hm => hnew id (.inr hm)
  have hstart : Trace.Mirrors (· = o.style) o.directory location (Known (Stored store))
      (.start store ids) (.start store ids) := by
    refine ⟨rfl, rfl, rfl, h.counterparts ?_⟩
    intro table records hl r hm
    exact .inl ⟨rfl, table, records, hl, r, hm, rfl⟩
  have hstyles (style : Json.Style) (ids : IdSource)
      (hm : .reopen style ids ∈ stepsOf o.style queries) : style = o.style :=
    style_of_mem_stepsOf hm
  have hmirrors := hstart.foldl hstyles
  rw [filter_isRun_stepsOf] at hmirrors
  exact hmirrors hQ

/-- What the first texts come to is among the answers to all queries. -/
theorem mem_answers_of_take {o : Options} {location : Location} {store : DirectoryStore}
    (h : store.OpenedIn (· = o.style) o.directory location) (ids : IdSource)
    (queries : List (String × IdSource)) {n : Nat} {answer : Answer} :
    let p := (((queries.take n).map Prod.fst).map Step.run).foldl Trace.next (.start store ids)
    let t := (stepsOf o.style queries).foldl Trace.next (.start store ids)
    answer ∈ p.answers → t.drawn.Nodup →
      (∀ id, id ∈ p.drawn ∨ id ∈ t.drawn → ¬ Stored store id) → answer ∈ t.answers := by
  obtain ⟨answers, drawn, hanswers, hdrawn⟩ :=
    exists_grown_of_take o.style queries n (.start store ids)
  intro p t hanswer hd hnew
  rw [hdrawn] at hd hnew
  have hmirrors := queries_mirror h ids (queries.take n) (List.nodup_append.1 hd).1
    fun id hm => hnew id (hm.imp_right (List.mem_append_left drawn))
  rw [hanswers, hmirrors.answers]
  exact List.mem_append_left answers hanswer

/-- Wherever the data directory can be opened, a shell that is fed statements answers each as a
query of it would, and both leave the same documents but for the identifiers given out. It is taken
that nothing panics: the log level can be read, and so can the lines with their backspaces, and no
query is asked for a table that cannot be laid out. -/
theorem shell_agrees (d : Dialogue) (g : Given) (o : Options) (store : DirectoryStore)
    (hg : Given.Reads .none d.options g)
    (ho : readOptions? d.directory (d.options ++ ["shell"]) = some o)
    (hlog : o.logFilter.panics = false)
    (hopen : (openIn (.standard o.directory o.style) d.files).1 = .ok store)
    (hn : ∀ line ∈ d.lines, '\n' ∉ line.1.toList)
    (hb : ∀ line ∈ d.lines, (Shell.typed? line.1).isSome)
    (hl : ∀ line ∈ d.lines, Shell.IsStatement (Shell.typed line.1))
    (hc : ∀ f ∈ d.queries.1, f.code ≠ panicCode)
    (hd : d.queryIds.Nodup)
    (hnew : ∀ id, id ∈ d.shellIds ∨ id ∈ d.queryIds → ¬ Stored store id) :
    d.Agrees o store := by
  have hopened := openIn_eq_of_ok hopen
  obtain ⟨location, h⟩ := openedIn_of_openIn hopen
  have hn' : ∀ line ∈ d.lines.map Prod.fst, '\n' ∉ line.toList := List.forall_mem_map.2 hn
  have hb' : ∀ line ∈ d.lines.map Prod.fst, (Shell.typed? line).isSome :=
    List.forall_mem_map.2 hb
  have hl' : ∀ line ∈ d.lines.map Prod.fst, Shell.IsStatement (Shell.typed line) :=
    List.forall_mem_map.2 hl
  obtain ⟨hfiles', hids', hfinishes⟩ := queries_follow hg ho hlog hopened h d.ids d.texts
  have htexts : (d.lines.map Prod.fst).map Shell.typed = d.texts.map Prod.fst := by
    rw [Dialogue.texts, List.map_map, List.map_map]
    rfl
  change d.queryIds = _ at hids'
  rw [hids'] at hd
  rw [hids'] at hnew
  have hcode : d.shell.code ≠ panicCode := by
    intro hpanics
    obtain ⟨n, hids, answer, hanswer, hfails⟩ :=
      shell_panics hg ho hlog hopened h d.ids hn' hb' hl' hpanics
    change d.shellIds = _ at hids
    rw [List.map_take, htexts, ← List.map_take] at hids hanswer
    rw [hids] at hnew
    have hgiven := mem_answers_of_take h d.ids d.texts hanswer hd hnew
    rw [canTell_of_forall₂ hfinishes hc answer hgiven] at hfails
    cases hfails
  obtain ⟨hcode, hids, ⟨s, hstore, hfiles⟩, replies, hcan, hreplies, houtput⟩ :=
    shell_follows hg ho hlog hopened h d.ids hn' hb' hl' hcode
  -- Shell and queries run the same texts, so one course of the store stands behind all answers.
  rw [htexts] at hids hstore hcan hreplies
  change d.shellIds = _ at hids
  rw [hids] at hnew
  have hruns : ∀ step ∈ (d.texts.map Prod.fst).map Step.run, step.isRun :=
    fun _ => Trace.isRun_of_mem_map
  have hmirrors := queries_mirror h d.ids d.texts hd hnew
  rw [hmirrors.answers] at hfinishes
  obtain ⟨ρ, hρ, hfixed, hdocuments⟩ :=
    hmirrors.sameDocuments (Trace.nodup_drawn_of_runs hruns store d.ids) hd hnew
  constructor
  · exact hcode
  · rw [List.isEmpty_map] at houtput
    exact ⟨replies, forall₂_agreesWith hcan hfinishes hreplies, houtput⟩
  · have hleft : d.left store = _ := hfiles'
    have hleads := hmirrors.stores.left.leads
    rw [← hstore] at hdocuments hleads
    rw [hids, hids', hleft]
    refine ⟨ρ, hρ, hfixed, ?_⟩
    change SameDocuments _ _ (run _ _).files _
    rw [hfiles]
    exact sameDocuments_finish hleads hdocuments

/-- Lines with blanks and a comment around them, one that is no statement, and one in which a letter
was typed by mistake. -/
theorem shell_agrees_past_a_failing_line :
    let o : Options := ⟨"data", true, .table, none, .shell⟩
    let files := FileSystem.empty.put ["data"] .directory
    let d : Dialogue := ⟨["-d", "data", "--pretty"], none, files, ⟨0, 0, 0⟩,
      [("  CREATE TABLE t (a INT) -- new\r", ⟨1, 0, 0⟩), ("INSERT INTO t VALUES (1)", ⟨2, 0, 0⟩),
        ("SELECT", ⟨3, 0, 0⟩), ("\tSELECTS\x08 a FROM t", ⟨4, 0, 0⟩)]⟩
    d.queries.1.map (·.code) = [0, 0, 1, 0] ∧ d.Agrees o ⟨.standard "data" .pretty,
      files.put ["data", ".schema.json"] (.file "\x7b\x7d")⟩ := by
  intro o files d
  generalize hs : (⟨.standard "data" .pretty,
    files.put ["data", ".schema.json"] (.file "\x7b\x7d")⟩ : DirectoryStore) = store
  have he : files.IsEmptyDirectory ⟨"data"⟩ := ⟨["data"], by decide, fun name => rfl⟩
  have hg : Given.Reads .none d.options ⟨some "data", true, none, none⟩ :=
    .parted rfl rfl rfl (.flag rfl rfl (.done _))
  have ho : readOptions? d.directory (d.options ++ ["shell"]) = some o := by decide +kernel
  have hopen : (openIn (.standard o.directory o.style) d.files).1 = .ok store := by
    rw [← hs]
    decide +kernel
  have hruns : d.queries.1.map (·.code) = [0, 0, 1, 0] ∧ d.queryIds.Nodup := by decide +kernel
  have hcodes : ∀ f ∈ d.queries.1, f.code ≠ panicCode := by
    intro f hf he
    have hmem := List.mem_map_of_mem hf (f := (·.code))
    rw [he, hruns.1] at hmem
    exact absurd hmem (by decide)
  refine ⟨hruns.1, shell_agrees d _ o store hg ho (by decide +kernel) hopen (by decide)
    (by decide +kernel) (by decide +kernel) hcodes hruns.2 ?_⟩
  rintro id - ⟨table, records, hl, -⟩
  cases (faithful.loadTable (shows_empty_of_openIn he.makeDirectories hopen)).1 hl

theorem toList_unlines_cons (line : String) (lines : List String) :
    (unlines (line :: lines)).toList = line.toList ++ '\n' :: (unlines lines).toList := by
  simp [unlines]

namespace Dialogue

variable (d : Dialogue)

/-- A shell and single queries that agree to the letter: the text of a query is the line as it was
typed, and the shell says nothing of its history. -/
structure AgreesVerbatim (o : Options) : Prop where
  output : ∃ replies, List.Forall₂ Finish.AgreesWith
      (runQueries d.options d.directory d.files d.lines).1 replies ∧
    d.shell.output = unlines (Shell.welcome :: (replies ++ ["CTRL-D"]))
  documents : ∃ ρ : RecordId → RecordId, SameDocuments ρ (.standard o.directory o.style)
    d.shell.files (runQueries d.options d.directory d.files d.lines).2

variable {d}

/-- Lines without a backspace, at least one of them, and a history that can be kept are all that it
takes. -/
theorem Agrees.verbatim {o : Options} {store : DirectoryStore} (h : d.Agrees o store)
    (hne : d.lines ≠ []) (hb : ∀ line ∈ d.lines, Text.backspace ∉ line.1.toList)
    (hload : ∃ history, History.load store.files = .ok history)
    (hsave : ∃ files, store.files.write History.file "" = .ok files) : d.AgreesVerbatim o := by
  obtain ⟨history, hload⟩ := hload
  obtain ⟨files, hsave⟩ := hsave
  obtain ⟨replies, hall, ho⟩ := h.output
  obtain ⟨ρ, -, -, hdocuments⟩ := h.documents
  have htexts : d.texts = d.lines := by
    rw [texts, List.map_congr_left (g := id), List.map_id]
    rintro ⟨line, ids⟩ hm
    exact congrArg (·, ids) (Shell.typed_of_not_mem (hb _ hm))
  have hfull : ¬ d.lines.isEmpty = true := mt List.isEmpty_iff.1 hne
  rw [queries, htexts] at hall
  rw [left, queries, htexts, if_neg hfull] at hdocuments
  rw [hload, hsave, if_neg hfull] at ho
  refine ⟨⟨replies, hall, ?_⟩, ρ, hdocuments⟩
  rw [ho]
  rfl

theorem AgreesVerbatim.isPrefix_output {o : Options} (h : d.AgreesVerbatim o) {codes : List Nat}
    (hc : (runQueries d.options d.directory d.files d.lines).1.map (·.code) = 1 :: codes) :
    (Shell.welcome ++ "\nError: ").toList.isPrefixOf d.shell.output.toList := by
  obtain ⟨replies, hall, ho⟩ := h.output
  obtain ⟨f, fs, hf, hcode, -⟩ := List.map_eq_cons_iff.1 hc
  rw [hf] at hall
  cases hall with
  | cons hreply _ =>
    rcases hreply with ⟨h0, -⟩ | ⟨-, -, rest, rfl⟩
    · rw [h0] at hcode
      cases hcode
    · rw [ho, List.isPrefixOf_iff_prefix, toList_unlines_cons, List.cons_append,
        toList_unlines_cons, String.toList_append, String.toList_append, List.append_assoc]
      exact (List.prefix_append_right_inj _).2 (List.prefix_append ('\n' :: "Error: ".toList) _)

/-- What keeps a shell and single queries from agreeing to the letter: a backspace in a line, a
directory in the place of the history, a data directory that cannot be made, and no line at all. -/
theorem not_agreesVerbatim :
    let dialogue (options : List String) (files : FileSystem) (lines : List String) : Dialogue :=
      ⟨options, none, files, ⟨0, 0, 0⟩, lines.map fun line => (line, ⟨1, 0, 0⟩)⟩
    let o : Options := ⟨"db", false, .table, none, .shell⟩
    let line := "CREATE TABLE ab\x08 (x INT)"
    (Shell.IsStatement line ∧ ¬ (dialogue [] .empty [line]).AgreesVerbatim o) ∧
      (Shell.IsStatement "SELECT" ∧
        ¬ (dialogue ["-d", ".jsondb_history"] .empty ["SELECT"]).AgreesVerbatim
          { o with directory := ".jsondb_history" } ∧
        ¬ (dialogue [] (FileSystem.empty.put ["db"] (.file "")) ["SELECT"]).AgreesVerbatim o) ∧
      ¬ (dialogue [] .empty []).AgreesVerbatim o := by
  intro dialogue o line
  have hfails {d : Dialogue} {o : Options} (hc : (runQueries d.options d.directory d.files
      d.lines).1.map (·.code) = [1]) (hp : (Shell.welcome ++ "\nError: ").toList.isPrefixOf
        d.shell.output.toList = false) : ¬ d.AgreesVerbatim o := by
    intro h
    rw [h.isPrefix_output hc] at hp
    cases hp
  refine ⟨⟨by decide +kernel, ?_⟩, ⟨by decide +kernel, ?_, ?_⟩, ?_⟩
  · exact hfails (by decide +kernel) (by decide +kernel)
  · exact hfails (by decide +kernel) (by decide +kernel)
  · exact hfails (by decide +kernel) (by decide +kernel)
  · rintro ⟨-, ρ, hdocuments⟩
    have hcatalog := hdocuments.catalog
    revert hcatalog
    decide +kernel

end Dialogue

end CommandLine

end DocBase
