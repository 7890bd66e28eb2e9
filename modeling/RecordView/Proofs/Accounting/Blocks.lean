import RecordView.Aggregate.Call
import RecordView.Proofs.Service.Update

/-!
# Blocks of events

Every call leaves one block of events: a start, the facets that were attached, and a finish that
says whether the call failed and how many rows it touched (`Block`, `Call.exists_block`).  This
holds wherever in the call an error comes from.

Updates of several models are calls of their own, up to the first that fails.  So a run of calls
leaves the blocks of all calls that were attempted, one after the other, and as many errors as of
these calls failed (`runAll_attempts`, `exists_ledger`).
-/

namespace RecordView

/-! ### Calls -/

/-- What a call answers. -/
inductive Answer
  | page (results : Results Record)
  /-- Whether anything was removed. -/
  | removed (any : Bool)

/-- A call of a service or of an aggregation, to be made on a store. -/
inductive Call (σ : Type) : Type 1
  | get (s : Service σ) (request : ReadRequest)
  | create (s : Service σ) (models : List Record)
  | update (s : Service σ) (model : Record)
  | delete (s : Service σ) (filter : Lambda)
  | aggregate {J : Type} (a : Aggregation σ J) (request : ReadRequest)

namespace Call

variable {σ : Type}

/-- The kind that the events of the call show. -/
def kind : Call σ → CallKind
  | get _ _ => .get
  | create _ _ => .create
  | update _ _ => .update
  | delete _ _ => .delete
  | aggregate _ _ => .aggregate

/-- The path of the entity that is called, or of the composite. -/
def path : Call σ → String
  | get s _ | create s _ | update s _ | delete s _ => s.entity.path
  | aggregate a _ => a.composite.path

/-- What the call leaves behind on a store. -/
def report : Call σ → σ → Report σ Answer
  | get s request, store => (s.get store request).map .page
  | create s models, store => (s.create store models).map .page
  | update s model, store => (s.update store model).map .page
  | delete s filter, store => (s.delete store filter).map .removed
  | aggregate a request, store => (a.get store request).map .page

end Call

/-! ### What a block says -/

/-- The events of one call, given by what they say. -/
structure Block where
  kind : CallKind
  path : String
  facets : AttachedFacets
  rows : Nat
  failed : Bool

/-- A start, the facets, and a finish. -/
def Block.events (b : Block) : List Event :=
  .start b.kind b.path :: b.facets.map AttachedFacet.event ++
    [.finish b.kind b.path b.rows b.failed]

namespace Call

variable {σ : Type}

/-- The facets were attached in order, up to the first that failed, whose error the call answers.
Only aggregations have any. -/
def AttachedSoFar (store : σ) (facets : AttachedFacets) : Call σ → Prop
  | aggregate a request => ∃ reached rest, a.attachmentOrder = reached ++ rest ∧
      reached.mapM (·.attach store request.filter) = .ok facets ∧
      ∀ f ∈ rest.head?, ∃ e, f.attach store request.filter = .error e ∧
        (a.get store request).outcome = .error e
  | _ => facets = []

/-- So many rows were removed.  From a table so many are gone. -/
def Removed (store : σ) (rows : Nat) : Call σ → Prop
  | delete s filter => ∃ translated committed after, s.translate filter = .ok translated ∧
      s.repository.commit store [.remove (some translated)] = .ok (committed, after) ∧
      (s.delete store filter).store = after ∧ rows = committed.removed ∧
      ∀ table, s.repository.KeepsTable table →
        (table after).rows.length + rows = (table store).rows.length
  | _ => False

/-- The rows that go with an answer: those on the page, or those that were removed. -/
def Touched (c : Call σ) (store : σ) (rows : Nat) : Answer → Prop
  | .page results => rows = results.items.length
  | .removed any => any = decide (0 < rows) ∧ c.Removed store rows

end Call

/-- The block tells what became of a call on a store. -/
structure Block.Accounts {σ : Type} (b : Block) (c : Call σ) (store : σ) : Prop where
  kind : b.kind = c.kind
  path : b.path = c.path
  facets : c.AttachedSoFar store b.facets
  failed_iff : b.failed = true ↔ ∃ e, (c.report store).outcome = .error e
  rows_of_failed : b.failed = true → b.rows = 0
  rows_of_ok : ∀ answer, (c.report store).outcome = .ok answer → c.Touched store b.rows answer

/-! ### One call -/

section

variable {σ J α β γ : Type} {store : σ}

/-- Whether a report is that of a failure. -/
theorem failed_iff {outcome : Except Error α} :
    failed outcome = true ↔ ∃ e, outcome = .error e := by
  cases outcome with
  | ok a => exact ⟨nofun, fun ⟨_, h⟩ => nomatch h⟩
  | error e => exact ⟨fun _ => ⟨e, rfl⟩, fun _ => rfl⟩

theorem Report.map_map (f : α → β) (g : β → γ) (r : Report σ α) :
    (r.map f).map g = r.map (g ∘ f) := by
  cases r with
  | mk outcome store events => cases outcome <;> rfl

theorem failed_map {outcome : Except Error α} (f : α → β) :
    failed (outcome.map f) = failed outcome := by
  cases outcome <;> rfl

/-- The rows that a finish shows: none after a failure. -/
def shownRows (rows : α → Nat) : Except Error α → Nat
  | .ok a => rows a
  | .error _ => 0

/-- Whether the span of a call was completed shows its success. -/
theorem events_ofCall (kind : CallKind) (path : String) (rows : α → Nat) (inside : List Event)
    (done : Except Error α × σ) :
    (Report.ofCall kind path rows inside done).events = .start kind path :: inside ++
      [.finish kind path (shownRows rows done.1) (failed done.1)] := by
  obtain ⟨outcome, store⟩ := done
  cases outcome <;> rfl

/-- A call between a start and a finish leaves a block, which tells of its rows and its failure. -/
theorem accounts_ofCall {c : Call σ} (rows : α → Nat) (f : α → Answer) (facets : AttachedFacets)
    {done : Except Error α × σ}
    (hreport : c.report store =
      (Report.ofCall c.kind c.path rows (facets.map AttachedFacet.event) done).map f)
    (hfacets : c.AttachedSoFar store facets)
    (hrows : ∀ a, done.1 = .ok a → c.Touched store (rows a) (f a)) :
    ∃ b : Block, (c.report store).events = b.events ∧ b.Accounts c store := by
  have houtcome : (c.report store).outcome = done.1.map f := by rw [hreport]; rfl
  refine ⟨⟨c.kind, c.path, facets, shownRows rows done.1, failed done.1⟩, ?_, ?_⟩
  · rw [hreport]
    exact events_ofCall c.kind c.path rows (facets.map AttachedFacet.event) done
  · refine ⟨rfl, rfl, hfacets, ?_, fun h => ?_, fun answer h => ?_⟩
    · rw [houtcome, ← failed_iff, failed_map]
    · obtain ⟨e, he⟩ := failed_iff.1 h
      simp only [he, shownRows]
    · rw [houtcome] at h
      obtain ⟨a, ha, rfl⟩ := map_eq_ok.1 h
      simp only [ha, shownRows]
      exact hrows a ha

theorem results_of_overwrite {s : Service σ} {model : Record} {results : Results Record}
    (h : (s.overwrite store model).1 = .ok results) : results = .single model := by
  rw [Service.overwrite] at h
  cases hexpect : s.expectOne store model with
  | error e => rw [hexpect] at h; cases h
  | ok _ =>
    cases hload : s.loadOne store model with
    | error e => rw [hexpect, hload] at h; cases h
    | ok entity =>
      simp only [hexpect, hload] at h
      rw [Service.storeOne] at h
      cases hcommit : s.repository.commit store [.replace (s.keyFilter model) entity] with
      | error e => rw [hcommit] at h; cases h
      | ok done =>
        simp only [hcommit] at h
        split at h
        · cases h
        · cases h
          rfl

/-- What is removed is translated and committed, and it is counted. -/
theorem removed_of_remove {s : Service σ} {filter : Lambda} {rows : Nat}
    (h : (s.remove store filter).1 = .ok rows) : (Call.delete s filter).Removed store rows := by
  rw [Service.remove] at h
  cases htranslate : s.translate filter with
  | error e => rw [htranslate] at h; cases h
  | ok translated =>
    cases hcommit : s.repository.commit store [.remove (some translated)] with
    | error e => rw [htranslate] at h; simp only [hcommit] at h; cases h
    | ok done =>
      obtain ⟨committed, after⟩ := done
      rw [htranslate] at h
      simp only [hcommit] at h
      cases h
      refine ⟨translated, committed, after, htranslate, hcommit, ?_, rfl, fun table htable => ?_⟩
      · simp only [Service.delete, Report.map, Report.ofCall, Service.remove, htranslate, hcommit]
      · obtain ⟨-, -, hafter, rfl⟩ := Table.commit_remove_eq_ok.1 (htable.commit hcommit)
        rw [hafter, List.countP_eq_length_filter, Nat.add_comm]
        exact (List.length_eq_length_filter_add _).symm

/-- The facets that are attached are those before the first that fails. -/
theorem attachAll_reaches (store : σ) (global : Option Lambda) (fs : List (Facet σ J)) :
    ∃ reached rest, fs = reached ++ rest ∧
      reached.mapM (·.attach store global) = .ok (Aggregation.attachAll store global fs).1 ∧
      ∀ f ∈ rest.head?, ∃ e, f.attach store global = .error e ∧
        (Aggregation.attachAll store global fs).2 = .error e := by
  induction fs with
  | nil => exact ⟨[], [], rfl, rfl, by simp⟩
  | cons f fs ih =>
    rw [Aggregation.attachAll]
    cases hf : f.attach store global with
    | error e => exact ⟨[], f :: fs, rfl, rfl, by simp [hf]⟩
    | ok attached =>
      obtain ⟨reached, rest, rfl, hreached, hrest⟩ := ih
      refine ⟨f :: reached, rest, rfl, ?_, hrest⟩
      rw [List.mapM_cons, hf, hreached]
      rfl

theorem attachedSoFar_aggregate (a : Aggregation σ J) (request : ReadRequest) :
    (Call.aggregate a request).AttachedSoFar store (a.attach store request.filter).1 := by
  obtain ⟨reached, rest, horder, hreached, hrest⟩ :=
    attachAll_reaches store request.filter a.attachmentOrder
  refine ⟨reached, rest, horder, hreached, fun f hf => ?_⟩
  obtain ⟨e, hattach, houtcome⟩ := hrest f hf
  refine ⟨e, hattach, ?_⟩
  show a.read store request = .error e
  have hall : (a.attach store request.filter).2 = .error e := houtcome
  simp only [Aggregation.read, hall]

/-- **Every call leaves one block of events**, whichever way it ends. -/
theorem Call.exists_block (c : Call σ) (store : σ) :
    ∃ b : Block, (c.report store).events = b.events ∧ b.Accounts c store := by
  cases c with
  | get s request => exact accounts_ofCall Results.length .page [] rfl rfl fun _ _ => rfl
  | create s models => exact accounts_ofCall Results.length .page [] rfl rfl fun _ _ => rfl
  | update s model =>
    refine accounts_ofCall (fun _ => 1) .page [] rfl rfl fun results h => ?_
    rw [results_of_overwrite h]
    rfl
  | delete s filter =>
    exact accounts_ofCall id (fun rows => .removed (0 < rows)) [] (Report.map_map ..) rfl
      fun rows h => ⟨rfl, removed_of_remove h⟩
  | aggregate a request =>
    exact accounts_ofCall Results.length .page _ rfl (attachedSoFar_aggregate a request)
      fun _ _ => rfl

end

/-! ### Runs -/

/-- What a caller asks for: one call, or the updates of several models. -/
inductive Invocation (σ : Type) : Type 1
  | call (c : Call σ)
  | updateMany (s : Service σ) (models : List Record)

/-- A call that was attempted, and the store on which it was. -/
structure Attempt (σ : Type) : Type 1 where
  call : Call σ
  store : σ

section

variable {σ : Type} {s : Service σ} {store : σ}

/-- What the attempt left behind. -/
def Attempt.report (a : Attempt σ) : Report σ Answer := a.call.report a.store

/-- The updates of models that are attempted: one for each, up to the first that fails. -/
def attemptedUpdates (s : Service σ) (store : σ) : List Record → List (Attempt σ)
  | [] => []
  | model :: models =>
    ⟨.update s model, store⟩ ::
      match (s.update store model).outcome with
      | .ok _ => attemptedUpdates s (s.update store model).store models
      | .error _ => []

namespace Invocation

/-- What the caller is left with. -/
def report : Invocation σ → σ → Report σ Answer
  | call c, store => c.report store
  | updateMany s models, store => (s.updateMany store models).map .page

/-- The calls that are attempted. -/
def attempts : Invocation σ → σ → List (Attempt σ)
  | call c, store => [⟨c, store⟩]
  | updateMany s models, store => attemptedUpdates s store models

end Invocation

/-- The reports of a run.  Everything is done on the store that was left by what was done before,
whether that failed or not. -/
def runAll (store : σ) : List (Invocation σ) → List (Report σ Answer)
  | [] => []
  | i :: is => i.report store :: runAll (i.report store).store is

/-- The calls that are attempted in a run. -/
def attemptsOfRun (store : σ) : List (Invocation σ) → List (Attempt σ)
  | [] => []
  | i :: is => i.attempts store ++ attemptsOfRun (i.report store).store is

/-- How many of the attempts failed. -/
def failures (attempts : List (Attempt σ)) : Nat := attempts.countP fun a => failed a.report.outcome

theorem failures_append (as bs : List (Attempt σ)) :
    failures (as ++ bs) = failures as + failures bs := List.countP_append

/-! ### Updates of several models -/

/-- The update of one more model, unless one before it failed. -/
def updateNext (s : Service σ) (r : Report σ (Results Record)) (model : Record) :
    Report σ (Results Record) :=
  r.andThen fun results store => (s.update store model).map results.merge

theorem updateMany_eq_foldl (s : Service σ) (store : σ) (models : List Record) :
    s.updateMany store models = models.foldl (updateNext s) (.pure store .empty) := rfl

theorem foldl_updateNext_of_error (models : List Record) {r : Report σ (Results Record)}
    {e : Error} (h : r.outcome = .error e) : models.foldl (updateNext s) r = r := by
  induction models with
  | nil => rfl
  | cons model models ih =>
    have hstep : updateNext s r model = r := by
      cases r
      cases h
      rfl
    rw [List.foldl_cons, hstep, ih]

theorem updateNext_of_ok {r : Report σ (Results Record)} {results : Results Record}
    (h : r.outcome = .ok results) (model : Record) :
    updateNext s r model = ⟨(s.update r.store model).outcome.map results.merge,
      (s.update r.store model).store, r.events ++ (s.update r.store model).events⟩ := by
  rw [updateNext, Report.andThen, h]
  rfl

theorem failures_cons_update (model : Record) (attempts : List (Attempt σ)) :
    failures (⟨.update s model, store⟩ :: attempts) =
      failures attempts + if failed (s.update store model).outcome then 1 else 0 := by
  have hsame : failed (Attempt.report ⟨.update s model, store⟩).outcome =
      failed (s.update store model).outcome := failed_map _
  rw [failures, List.countP_cons, hsame]
  rfl

/-- Updates leave the events of the attempted ones, of which only the last may have failed. -/
theorem foldl_updateNext (models : List Record) {r : Report σ (Results Record)}
    {results : Results Record} (h : r.outcome = .ok results) :
    (models.foldl (updateNext s) r).events =
        r.events ++ (attemptedUpdates s r.store models).flatMap (·.report.events) ∧
      failures (attemptedUpdates s r.store models) =
        if failed (models.foldl (updateNext s) r).outcome then 1 else 0 := by
  induction models generalizing r results with
  | nil =>
    refine ⟨(List.append_nil _).symm, ?_⟩
    rw [List.foldl_nil, h]
    rfl
  | cons model models ih =>
    rw [List.foldl_cons, updateNext_of_ok h, attemptedUpdates, failures_cons_update]
    cases hupdate : (s.update r.store model).outcome with
    | error e =>
      -- the update that fails is the last that is attempted
      rw [foldl_updateNext_of_error models rfl]
      exact ⟨(congrArg (r.events ++ ·) (List.append_nil _)).symm, rfl⟩
    | ok answer =>
      obtain ⟨hrest, hcount⟩ := ih (r := ⟨.ok (results.merge answer),
        (s.update r.store model).store, r.events ++ (s.update r.store model).events⟩) rfl
      refine ⟨hrest.trans (List.append_assoc ..), hcount⟩

namespace Invocation

/-- An invocation leaves the events of the attempted calls, of which one failed if it did. -/
theorem report_attempts (i : Invocation σ) (store : σ) :
    (i.report store).events = (i.attempts store).flatMap (·.report.events) ∧
      failures (i.attempts store) = if failed (i.report store).outcome then 1 else 0 := by
  cases i with
  | call c =>
    refine ⟨(List.append_nil _).symm, ?_⟩
    rw [failures, attempts, List.countP_singleton]
    rfl
  | updateMany s models =>
    obtain ⟨hevents, hfailures⟩ := foldl_updateNext (s := s) models (r := .pure store .empty) rfl
    exact ⟨hevents, hfailures.trans (by rw [report, updateMany_eq_foldl, Report.map, failed_map])⟩

end Invocation

/-- **A run leaves the events of the attempted calls**, and an error for each that failed. -/
theorem runAll_attempts (is : List (Invocation σ)) (store : σ) :
    (runAll store is).flatMap (·.events) =
        (attemptsOfRun store is).flatMap (·.report.events) ∧
      (runAll store is).countP (failed ·.outcome) = failures (attemptsOfRun store is) := by
  induction is generalizing store with
  | nil => exact ⟨rfl, rfl⟩
  | cons i is ih =>
    obtain ⟨hevents, hfailures⟩ := i.report_attempts store
    obtain ⟨hrest, hcount⟩ := ih (i.report store).store
    rw [runAll, attemptsOfRun, List.flatMap_cons, List.flatMap_append, List.countP_cons,
      failures_append, hevents, hfailures, hrest, hcount]
    exact ⟨rfl, Nat.add_comm ..⟩

/-- The attempted calls with their blocks, which make up all events. -/
theorem exists_ledger (attempts : List (Attempt σ)) :
    ∃ ledger : List (Attempt σ × Block), ledger.map (·.1) = attempts ∧
      attempts.flatMap (·.report.events) = ledger.flatMap (·.2.events) ∧
      ∀ entry ∈ ledger, entry.2.Accounts entry.1.call entry.1.store := by
  induction attempts with
  | nil => exact ⟨[], rfl, rfl, by simp⟩
  | cons a attempts ih =>
    obtain ⟨ledger, hattempts, hevents, haccounts⟩ := ih
    obtain ⟨b, hblock, haccount⟩ := a.call.exists_block a.store
    refine ⟨(a, b) :: ledger, by rw [List.map_cons, hattempts], ?_, ?_⟩
    · rw [List.flatMap_cons, List.flatMap_cons, ← hevents]
      exact congrArg (· ++ _) hblock
    · exact List.forall_mem_cons.2 ⟨haccount, haccounts⟩

end

end RecordView
