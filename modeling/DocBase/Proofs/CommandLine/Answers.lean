import DocBase.Proofs.CommandLine.History
import DocBase.Proofs.CommandLine.Replies
import DocBase.Proofs.Engine.Reopening
import DocBase.Proofs.Store.CatalogFile

namespace DocBase

open DirectoryStore

namespace Engine

/-- Blanks around a text change nothing, but for the places that an error names. -/
theorem execute_trimmed {σ : Type} [Store σ] (store : σ) (ids : IdSource) (text : String) :
    let o := execute store ids text
    let o' := execute store ids (CommandLine.Shell.trimmed text)
    o'.store = o.store ∧ o'.ids = o.ids ∧ o'.result.toOption = o.result.toOption := by
  have halike := CommandLine.Shell.alike_tokens_trimmed text
  intro o o'
  cases hp : Sql.parse (CommandLine.Shell.trimmed text) with
  | ok s =>
    have ho : o = o' := by
      change execute _ _ _ = execute _ _ _
      rw [execute_of_parse_ok hp, execute_of_parse_ok ((Sql.parse_iff_of_alike halike s).1 hp)]
    rw [ho]
    exact ⟨rfl, rfl, rfl⟩
  | error e =>
    cases hp' : Sql.parse text with
    | ok s =>
      rw [(Sql.parse_iff_of_alike halike s).2 hp'] at hp
      cases hp
    | error e' =>
      have ho : o = ⟨.error (.parse e'), [], store, ids⟩ := execute_of_parse_error hp'
      have ho' : o' = ⟨.error (.parse e), [], store, ids⟩ := execute_of_parse_error hp
      rw [ho, ho']
      exact ⟨rfl, rfl, rfl⟩

theorem openedIn_execute {styles : Json.Style → Prop} {directory : String} {location : Location}
    {store : DirectoryStore} (h : store.OpenedIn styles directory location) (ids : IdSource)
    (text : String) : (execute store ids text).store.OpenedIn styles directory location := by
  have hself : Counterparts styles directory location Eq store store :=
    h.counterparts fun _ _ _ _ _ => rfl
  have heq : Relator.BiUnique (α := RecordId) Eq :=
    ⟨fun _ _ _ hac hbc => hac.trans hbc.symm, fun _ _ _ hab hac => hab.symm.trans hac⟩
  obtain ⟨n, -, -, hs⟩ :=
    (execute_mirrors (mirrors styles directory location) heq hself ids ids text).store
  exact hs.left

theorem lasts_samePlaces (s : DirectoryStore) : Lasts (SamePlaces s) where
  saveTable h hs := h.trans (samePlaces_of_saveTable hs)
  deleteTable h hd := h.trans (samePlaces_of_deleteTable hd)
  saveCatalog h hs := h.trans (samePlaces_of_writeDocument hs)

theorem samePlaces_foldl (t : Trace) (texts : List String) :
    SamePlaces t.store ((texts.map Step.run).foldl Trace.next t).store := by
  induction texts generalizing t with
  | nil => exact .refl _
  | cons text texts ih =>
    have hfirst : SamePlaces t.store (t.next (.run text)).store :=
      (lasts_samePlaces t.store).execute (.refl _) text
    exact hfirst.trans (ih _)

end Engine

namespace CommandLine

open Engine

def Options.style (o : Options) : Json.Style := if o.pretty then .pretty else .compact

/-- Whether a result can be shown, which a table of too wide columns cannot. -/
def Options.canShow (o : Options) (result : ResultSet) : Bool :=
  match o.format with
  | .table => result.hasLayout
  | .json => true

def Options.shows (o : Options) (result : ResultSet) : String :=
  match o.format with
  | .table => result.display
  | .json => result.toJson.write o.style

def Options.database (o : Options) (store : DirectoryStore) (ids : IdSource) : Database :=
  ⟨store, ids, o.format⟩

abbrev Answer := Except QueryError ResultSet × List Warning

def Options.canTell (o : Options) (answer : Answer) : Bool :=
  match answer.1 with
  | .ok result => o.canShow result
  | .error _ => true

/-- The line of a shell that gives this answer. -/
def Options.Tells (o : Options) (answer : Answer) (line : String) : Prop :=
  match answer.1 with
  | .ok result => line = o.shows result ∧ ¬ IsError line
  | .error _ => IsError line

def Options.EndsWith (o : Options) (answer : Answer) (f : Finish) : Prop :=
  match answer.1 with
  | .ok result =>
    if o.canShow result then f.code = 0 ∧ f.output = unlines [o.shows result]
    else f.code = panicCode
  | .error _ => f.code = 1 ∧ f.output = ""

theorem Options.EndsWith.congr {o : Options} {answer : Answer} {f f' : Finish}
    (h : o.EndsWith answer f) (hc : f'.code = f.code) (ho : f'.output = f.output) :
    o.EndsWith answer f' := by
  rw [EndsWith, hc, ho]
  exact h

/-- The line of a shell that agrees with a query: it is what the query prints, or reports an error
where the query fails. -/
def Finish.AgreesWith (f : Finish) (line : String) : Prop :=
  f.code = 0 ∧ f.output = unlines [line] ∧ ¬ IsError line ∨
    f.code = 1 ∧ f.output = "" ∧ IsError line

theorem eq_ok_of_toOption {ε α : Type} {x : Except ε α} {a : α} (h : x.toOption = some a) :
    x = .ok a := by
  cases x with
  | ok b => exact congrArg Except.ok (Option.some.inj h)
  | error e => cases h

theorem exists_error_of_toOption {ε α : Type} {x : Except ε α} (h : x.toOption = none) :
    ∃ e, x = .error e := by
  cases x with
  | ok a => cases h
  | error e => exact ⟨e, rfl⟩

theorem Options.EndsWith.code_eq {o : Options} {answer : Answer} {f : Finish}
    (h : o.EndsWith answer f) (hc : o.canTell answer = false) : f.code = panicCode := by
  rw [EndsWith] at h
  rw [canTell] at hc
  split at h
  · next result hr =>
    rw [hr] at hc
    dsimp only at hc
    rwa [hc, if_neg Bool.false_ne_true] at h
  · next e he =>
    rw [he] at hc
    cases hc

theorem agreesWith_of_answer {o : Options} {answer : Answer} {f : Finish} {line : String}
    (hc : o.canTell answer) (hf : o.EndsWith answer f) (hl : o.Tells answer line) :
    f.AgreesWith line := by
  rw [Options.EndsWith] at hf
  rw [Options.Tells] at hl
  cases ha : answer.1 with
  | ok result =>
    rw [Options.canTell, ha] at hc
    rw [ha] at hf hl
    dsimp only at hc hf
    rw [if_pos hc] at hf
    obtain ⟨rfl, hn⟩ := hl
    exact .inl ⟨hf.1, hf.2, hn⟩
  | error e =>
    rw [ha] at hf hl
    exact .inr ⟨hf.1, hf.2, hl⟩

section
variable {o : Options} {location : Location} {store : DirectoryStore}
  (h : store.OpenedIn (· = o.style) o.directory location)
include h

theorem render?_eq (ids : IdSource) (result : ResultSet) :
    (o.database store ids).render? result =
      if o.canShow result then some (o.shows result) else none := by
  have hstyle : store.config.style = o.style := h.styles_config
  cases hf : o.format with
  | table => simp only [Database.render?, Options.canShow, Options.shows, Options.database, hf]
  | json =>
    simp only [Database.render?, Options.canShow, Options.shows, Options.database, hf, hstyle,
      if_true]

theorem answer_gets (ids : IdSource) (history : History) {line text : String}
    (hg : Shell.Gets line text) (hl : Shell.IsStatement (Shell.typed line)) :
    let out := execute store ids (Shell.typed line)
    let r := Shell.answer ⟨o.database store ids, history⟩ text
    r.shell = ⟨o.database out.store out.ids, history.add text⟩ ∧
      if o.canTell (out.result, out.warnings) then r.next = .goesOn ∧
        ∃ said, r.output = [said] ∧ o.Tells (out.result, out.warnings) said
      else r.next = .panics := by
  obtain ⟨hstore, hids, hresult⟩ := execute_trimmed store ids (Shell.typed line)
  intro out r
  have hr : r = _ := Shell.answer_of_isStatement (hl.of_gets hg) _
  rw [hg] at hr
  generalize hx : execute store ids (Shell.trimmed (Shell.typed line)) = x at hstore hids hresult
  replace hr : r = Shell.replyTo ⟨o.database x.store x.ids, history.add text⟩ x.warnings
      (x.result.map (o.database store ids).render?) := by
    rw [hr, ← hx]
    rfl
  rw [hstore, hids] at hr
  cases ho : out.result with
  | ok result =>
    have hok : x.result = .ok result := eq_ok_of_toOption (hresult.trans (congrArg _ ho))
    have hshown := render?_eq h ids result
    rw [hok, Except.map] at hr
    rw [← hx] at hok
    rw [Options.canTell]
    dsimp only
    split
    · next hs =>
      rw [if_pos hs] at hshown
      rw [hshown] at hr
      rw [hr]
      have hwell : ¬ IsError (o.shows result) := not_isError_of_render? hok hshown
      exact ⟨rfl, rfl, _, rfl, rfl, hwell⟩
    · next hs =>
      rw [if_neg hs] at hshown
      rw [hshown] at hr
      rw [hr]
      exact ⟨rfl, rfl⟩
  | error e =>
    obtain ⟨e', he⟩ := exists_error_of_toOption (hresult.trans (congrArg _ ho))
    rw [he, Except.map] at hr
    rw [hr]
    exact ⟨rfl, rfl, _, rfl, isError_errorLine _⟩

theorem query_endsWith (ids : IdSource) (text : String) :
    let out := execute store ids text
    let f := runQuery { o with command := .query text } (o.database store ids) text
    f.files = out.store.files ∧ f.ids = out.ids ∧ o.EndsWith (out.result, out.warnings) f := by
  intro out f
  have hf : f = runQuery { o with command := .query text } (o.database store ids) text := rfl
  have hout : execute store ids text = out := rfl
  rw [runQuery, Database.query, Options.database, hout] at hf
  rw [Options.EndsWith]
  cases hr : out.result with
  | ok result =>
    have hrender := render?_eq h ids result
    rw [Options.database] at hrender
    rw [hr, Except.map, hrender] at hf
    dsimp only at hf ⊢
    split
    · next hs =>
      rw [if_pos hs] at hf
      rw [hf]
      exact ⟨rfl, rfl, rfl, rfl⟩
    · next hs =>
      rw [if_neg hs] at hf
      rw [hf]
      exact ⟨rfl, rfl, rfl⟩
  | error e =>
    rw [hr] at hf
    rw [hf]
    exact ⟨rfl, rfl, rfl, rfl⟩

end

section
variable {o : Options} {location : Location} {lines texts : List String}
  (hg : List.Forall₂ Shell.Gets lines texts)
  (hl : ∀ line ∈ lines, Shell.IsStatement (Shell.typed line))
include hg hl

/-- A shell that is fed statements goes the way of its database, and panics over no answer. -/
theorem run_gets {t : Trace} (h : t.store.OpenedIn (· = o.style) o.directory location)
    (history : History) :
    let t' := ((lines.map Shell.typed).map Step.run).foldl Trace.next t
    let r := Shell.run ⟨o.database t.store t.ids, history⟩ (texts.map some)
    r.panicked = false →
      r.shell = ⟨o.database t'.store t'.ids, texts.foldl History.add history⟩ ∧
      ∃ replies answers, r.output = replies ++ ["CTRL-D"] ∧ t'.answers = t.answers ++ answers ∧
        (∀ answer ∈ answers, o.canTell answer) ∧ List.Forall₂ o.Tells answers replies := by
  induction hg generalizing t history with
  | nil =>
    exact fun _ => ⟨rfl, [], [], rfl, (List.append_nil _).symm, List.forall_mem_nil _, .nil⟩
  | @cons line text lines texts hfirst _ ih =>
    intro t' r hr
    have hopen : (t.next (.run (Shell.typed line))).store.OpenedIn (· = o.style) o.directory
        location := openedIn_execute h t.ids (Shell.typed line)
    obtain ⟨hshell, hsaid⟩ := answer_gets h t.ids history hfirst (hl line (.head _))
    split at hsaid
    · next hc =>
      obtain ⟨hgo, said, hsaid, ht⟩ := hsaid
      obtain ⟨houtput, hend, hwell⟩ := Shell.run_cons_of_goesOn hgo (texts.map some)
      rw [hshell] at houtput hend hwell
      obtain ⟨hlast, replies, answers, hreplies, hanswers, hall, htells⟩ :=
        ih (fun other hm => hl other (.tail _ hm)) hopen (history.add text) (hwell.symm.trans hr)
      refine ⟨hend.trans hlast, said :: replies, _ :: answers, ?_, ?_,
        List.forall_mem_cons.2 ⟨hc, hall⟩, .cons ht htells⟩
      · change (Shell.run _ (some text :: texts.map some)).output = _
        rw [houtput, hsaid, List.singleton_append, List.cons_append]
        exact congrArg (said :: ·) hreplies
      · change (List.foldl Trace.next _ _).answers = _
        rw [List.map_cons, List.map_cons, List.foldl_cons, hanswers, Trace.next, List.append_assoc]
        rfl
    · have hpanics := (Shell.run_cons_of_panics hsaid (texts.map some)).2
      rw [show r.panicked = true from hpanics] at hr
      cases hr

theorem run_gets_of_panicked {t : Trace}
    (h : t.store.OpenedIn (· = o.style) o.directory location) (history : History) :
    let r := Shell.run ⟨o.database t.store t.ids, history⟩ (texts.map some)
    r.panicked = true → ∃ n,
      let t' := (((lines.take n).map Shell.typed).map Step.run).foldl Trace.next t
      r.shell.database = o.database t'.store t'.ids ∧
        ∃ answer ∈ t'.answers, o.canTell answer = false := by
  induction hg generalizing t history with
  | nil => exact nofun
  | @cons line text lines texts hfirst _ ih =>
    intro r hr
    have hrun : r = Shell.run ⟨o.database t.store t.ids, history⟩ (some text :: texts.map some) :=
      rfl
    have hopen : (t.next (.run (Shell.typed line))).store.OpenedIn (· = o.style) o.directory
        location := openedIn_execute h t.ids (Shell.typed line)
    obtain ⟨hshell, hsaid⟩ := answer_gets h t.ids history hfirst (hl line (.head _))
    split at hsaid
    · obtain ⟨hgo, -⟩ := hsaid
      obtain ⟨-, hend, hwell⟩ := Shell.run_cons_of_goesOn hgo (texts.map some)
      rw [hrun, hwell, hshell] at hr
      obtain ⟨n, hlast, hanswer⟩ :=
        ih (fun other hm => hl other (.tail _ hm)) hopen (history.add text) hr
      refine ⟨n + 1, ?_⟩
      simp only [List.take_succ_cons, List.map_cons, List.foldl_cons]
      rw [hrun, hend, hshell]
      exact ⟨hlast, hanswer⟩
    · next hc =>
      obtain ⟨hend, -⟩ := Shell.run_cons_of_panics hsaid (texts.map some)
      refine ⟨1, ?_⟩
      simp only [List.take_succ_cons, List.take_zero, List.map_cons, List.map_nil, List.foldl_cons,
        List.foldl_nil]
      rw [hrun, hend, hshell]
      exact ⟨rfl, _, List.mem_append_right _ (List.mem_singleton_self _), Bool.eq_false_iff.2 hc⟩

end

end CommandLine

end DocBase
