import PredictionMarketMonitor.ReachableStores

set_option autoImplicit false

/-!
# Finalization effects and publication order

What one applied plan changes of checkpoints and publications, how the
publications of a source are numbered over any run of transactions, and what a
plan with an invalid run leaves behind.
-/
namespace PredictionMarketMonitor.PublicationOrder

open CanonicalJson CivilTime CollectionBase CollectionModels CommandLifecycle CommandStore
open Completion CompletionStore ControlPlane ControlPlaneTables FallibleSteps KeyedTable PageStore
open PlanEffects ReachableStores Sha256 StaleRecovery ThreadedLog

section Effects
variable {nfc : Text → Text} {context : CompletionContext} {plan : CompletionPlan}
  {results : List (RunState × Option PublicationDraft)}

theorem find_context (hdistinct : (context.runs.map (·.run.id)).Nodup) {f : RunCompletionFacts}
    (hf : f ∈ context.runs) : context.runs.find? (fun g => g.run.id = f.run.id) = some f := by
  have hfind := @find?_map_of_nodup _ _ _ _ id (fun g : RunCompletionFacts => g.run.id)
    (fun g => g.run.id) (fun _ => rfl) context.runs hdistinct f hf
  rwa [List.map_id] at hfind

theorem finalizes_origin (h : Finalizes nfc context plan results) {s : RunState}
    (hs : s ∈ plan.runs) : ∃ f ∈ context.runs, SameClaim f.run s ∧
      context.runs.find? (fun g => g.run.id = s.id) = some f := by
  rw [h.runs] at hs
  obtain ⟨result, hresult, rfl⟩ := List.mem_map.mp hs
  obtain ⟨f, hf, outcome, _, hprepare⟩ := forall₂_mem_right h.each result hresult
  obtain ⟨_, _, _, _, _, _, hrun⟩ := prepareRun_eq_ok.mp hprepare
  have hclaim : SameClaim f.run result.1 := by
    rw [hrun]
    exact ⟨rfl, rfl, rfl, rfl, rfl⟩
  refine ⟨f, mem_byRunId.mp hf, hclaim, ?_⟩
  rw [hclaim.1]
  exact find_context h.distinct (mem_byRunId.mp hf)

/-- The last completed run is kept, or is that of a success of the checkpoint. -/
theorem lastCompleted_cases (facts : List RunCompletionFacts) (key : UUID × String)
    (states : List RunState) (last : Option UUID) :
    (lastCompleted facts key states last = last ∧ ∀ s ∈ states, ¬Completes facts key s) ∨
      ∃ s ∈ states, Completes facts key s ∧ lastCompleted facts key states last = some s.id := by
  induction states generalizing last with
  | nil => exact .inl ⟨rfl, by simp⟩
  | cons s states ih =>
    have hcons : lastCompleted facts key (s :: states) last =
        lastCompleted facts key states (if Completes facts key s then some s.id else last) := rfl
    rw [hcons]
    rcases ih (if Completes facts key s then some s.id else last) with ⟨hkeep, hnone⟩ | hlater
    · by_cases hs : Completes facts key s
      · rw [if_pos hs] at hkeep ⊢
        exact .inr ⟨s, by simp, hs, hkeep⟩
      · rw [if_neg hs] at hkeep ⊢
        exact .inl ⟨hkeep, List.forall_mem_cons.mpr ⟨hs, hnone⟩⟩
    · obtain ⟨t, ht, hcompletes, heq⟩ := hlater
      exact .inr ⟨t, by simp [ht], hcompletes, heq⟩

/-- Revision, cursor and watermark of a checkpoint, with its identity. -/
def progress (c : CheckpointState) : CheckpointState := { c with lastCompletedRunId := none }

theorem locked_checkpoint {db : Database} {commandId : UUID} {attempt : ℕ} {now : Instant}
    {allow : Bool} {row : CommandRow} (h : Locked db commandId attempt now allow context row)
    {f : RunCompletionFacts} (hf : f ∈ context.runs) :
    CheckpointState.key f.checkpoint = (f.run.sourceId, f.run.scopeVersion) ∧
      db.checkpoints.find? (f.run.sourceId, f.run.scopeVersion) = some f.checkpoint := by
  obtain ⟨r, _, hfacts⟩ := forall₂_mem_right h.facts f hf
  obtain ⟨_, checkpoint, proof, hfind, _, rfl⟩ := completionFacts_eq_ok.mp hfacts
  exact ⟨(Table.find?_eq_some.mp hfind).2, hfind⟩

/-- What an applied plan does to checkpoints and publications. -/
structure Effect (db next : Database) (plan : CompletionPlan) : Prop where
  progress : ∀ key, (next.checkpoints.find? key).map progress =
    (db.checkpoints.find? key).map progress
  moved : ∀ key c d, db.checkpoints.find? key = some c → next.checkpoints.find? key = some d →
    d.lastCompletedRunId ≠ c.lastCompletedRunId → ∃ s ∈ plan.runs, s.status = .succeeded ∧
      (s.sourceId, s.scopeVersion) = key ∧ d.lastCompletedRunId = some s.id
  completed : ∀ s ∈ plan.runs, s.status = .succeeded → ∃ d,
    next.checkpoints.find? (s.sourceId, s.scopeVersion) = some d ∧
      d.lastCompletedRunId = some s.id
  distinct : (plan.runs.map (·.id)).Nodup
  published : plan.publications.map (fun d => (d.runId, d.sourceId)) =
    (plan.runs.filter (fun s => s.status = .succeeded)).map (fun s => (s.id, s.sourceId))
  stored : ∃ added, next.manifests.rows = db.manifests.rows ++ added ∧
    added.map (·.draft) = plan.publications

theorem effect_persisted {db next : Database} {commandId : UUID} {attempt : ℕ} {now : Instant}
    {allow : Bool} {row : CommandRow} {key : Bytes} {command : CommandState}
    (hdb : StoreInvariant db) (hlocked : Locked db commandId attempt now allow context row)
    (hplan : Finalizes nfc context plan results)
    (hpersisted : Persisted db context plan key next command) : Effect db next plan := by
  have hfind (k : UUID × String) := hpersisted.checkpoints (locked_current hlocked) k
  -- within an attempt a checkpoint has one run, so one success at most
  have hcompletes (s : RunState) (hs : s ∈ plan.runs) (k : UUID × String) :
      Completes context.runs k s ↔ s.status = .succeeded ∧ (s.sourceId, s.scopeVersion) = k := by
    obtain ⟨f, hf, hclaim, hfound⟩ := finalizes_origin hplan hs
    rw [Completes, hfound, hclaim.2.2.1, hclaim.2.2.2.1, ← (locked_checkpoint hlocked hf).1]
    simp
  have hunique (s t : RunState) (hs : s ∈ plan.runs) (ht : t ∈ plan.runs)
      (hsource : s.sourceId = t.sourceId) : s.id = t.id := by
    obtain ⟨f, hf, hfs, _⟩ := finalizes_origin hplan hs
    obtain ⟨g, hg, hgt, _⟩ := finalizes_origin hplan ht
    obtain ⟨hfmem, hfcommand, hfattempt⟩ := (locked_mem hlocked).mp ⟨f, hf, rfl⟩
    obtain ⟨hgmem, hgcommand, hgattempt⟩ := (locked_mem hlocked).mp ⟨g, hg, rfl⟩
    have hsame : f.run = g.run := hdb.single _ hfmem _ hgmem (hfcommand.trans hgcommand.symm)
      (hfs.2.2.1.symm.trans (hsource.trans hgt.2.2.1)) (hfattempt.trans hgattempt.symm)
    rw [hfs.1, hgt.1, hsame]
  obtain ⟨added, hrows, hdrafts, _⟩ := hpersisted.manifests
  refine {
    progress := fun k => ?_
    moved := fun k c d hc hd hne => ?_
    completed := fun s hs hsucceeded => ?_
    distinct := finalizes_distinct hplan
    published := finalizes_publications hplan
    stored := ⟨added, hrows, hdrafts⟩ }
  · rw [hfind]
    cases db.checkpoints.find? k <;> rfl
  · rw [hfind, hc] at hd
    obtain rfl := Option.some.inj hd
    rcases lastCompleted_cases context.runs k plan.runs c.lastCompletedRunId with
      ⟨hkeep, _⟩ | ⟨s, hs, hsuccess, heq⟩
    · exact absurd hkeep hne
    · obtain ⟨hstatus, hkey⟩ := (hcompletes s hs k).mp hsuccess
      exact ⟨s, hs, hstatus, hkey, heq⟩
  · obtain ⟨f, hf, hclaim, _⟩ := finalizes_origin hplan hs
    have hlocate := (locked_checkpoint hlocked hf).2
    rw [← hclaim.2.2.1, ← hclaim.2.2.2.1] at hlocate
    refine ⟨_, by rw [hfind, hlocate]; rfl, ?_⟩
    rcases lastCompleted_cases context.runs (s.sourceId, s.scopeVersion) plan.runs
      f.checkpoint.lastCompletedRunId with ⟨_, hnone⟩ | ⟨t, ht, hsuccess, heq⟩
    · exact absurd ((hcompletes s hs _).mpr ⟨hsucceeded, rfl⟩) (hnone s hs)
    · have hkey := ((hcompletes t ht _).mp hsuccess).2
      have hid := hunique s t hs ht (Prod.mk.inj hkey).1.symm
      rw [hid]
      exact heq

end Effects

section Numbers
variable {svc : Service}

theorem numbered_of_tables {db next : Database} (h : Numbered db)
    (hmanifests : next.manifests = db.manifests) (hsequences : next.sequences = db.sequences) :
    Numbered next := by
  intro sourceId
  have hpublications : publicationsOf next sourceId = publicationsOf db sourceId := by
    rw [publicationsOf, hmanifests]
    rfl
  have hcurrent : currentSequence next sourceId = currentSequence db sourceId := by
    rw [currentSequence, hsequences]
    rfl
  rw [hpublications, hcurrent]
  exact h sourceId

theorem numbered_bare {db : Database} (h : Bare db) : Numbered db := by
  intro sourceId
  have hpublications : publicationsOf db sourceId = [] := by
    rw [publicationsOf, h.manifests]
    rfl
  have hcurrent : currentSequence db sourceId = 0 := by
    rw [currentSequence, Table.find?, h.sequences]
    rfl
  rw [hpublications, hcurrent]
  exact ⟨trivial, rfl⟩

/-- Publications are numbered on, and none is taken back or reordered. -/
def Publishes (db next : Database) : Prop :=
  (Numbered db → Numbered next) ∧ ∃ added, next.manifests.rows = db.manifests.rows ++ added

theorem publishes_of_tables {db next : Database} (hmanifests : next.manifests = db.manifests)
    (hsequences : next.sequences = db.sequences) : Publishes db next :=
  ⟨fun h => numbered_of_tables h hmanifests hsequences, [],
    by rw [hmanifests, List.append_nil]⟩

theorem publishes_trans {db mid next : Database} (h : Publishes db mid) (k : Publishes mid next) :
    Publishes db next := by
  obtain ⟨added, hadded⟩ := h.2
  obtain ⟨later, hlater⟩ := k.2
  exact ⟨k.1 ∘ h.1, added ++ later, by rw [hlater, hadded, List.append_assoc]⟩

theorem publishes_persisted {db next : Database} {context : CompletionContext}
    {plan : CompletionPlan} {key : Bytes} {command : CommandState}
    (h : Persisted db context plan key next command) : Publishes db next := by
  obtain ⟨added, hrows, _⟩ := h.manifests
  exact ⟨h.numbered, added, hrows⟩

theorem publishes_move {db next : Database} (h : Move svc db next) : Publishes db next := by
  cases h with
  | @govern change next governed =>
    cases change with
    | setSource row =>
      obtain rfl := Except.ok.inj governed
      exact publishes_of_tables rfl rfl
    | addAuthorization row | addBudgetRecord row =>
      obtain ⟨_, _, governed⟩ := bind_eq_ok.mp governed
      obtain rfl := Except.ok.inj governed
      exact publishes_of_tables rfl rfl
  | materialize issued =>
    obtain ⟨_, issued⟩ := require_bind.mp issued
    obtain ⟨_, _, issued⟩ := bind_eq_ok.mp issued
    obtain rfl := Except.ok.inj issued
    exact publishes_of_tables rfl rfl
  | command | beat | receipt => exact publishes_of_tables rfl rfl
  | claim claims =>
    obtain ⟨_, _, _, _, _, _, _, hnext⟩ := claim_frame claims
    rw [hnext]
    exact publishes_of_tables rfl rfl
  | proof attaches =>
    obtain ⟨_, _, _, _, _, hnext⟩ := attachSkipDecision_frame attaches
    rw [hnext]
    exact publishes_of_tables rfl rfl
  | plan locked finalizes persisted change => exact publishes_persisted persisted

theorem publishes_step {db next : Database} {tx : Transaction}
    (h : ControlPlane.step svc db tx = .ok next) : Publishes db next := by
  rcases step_moves h with ⟨runId, request, committed, _, hcommitted, rfl⟩ | hmoves
  · obtain ⟨_, _, _, _, _, hnext⟩ := executePageCommit_frame hcommitted
    rw [hnext]
    exact publishes_of_tables rfl rfl
  · clear h
    induction hmoves with
    | refl => exact publishes_of_tables rfl rfl
    | tail _ hmove ih => exact publishes_trans ih (publishes_move hmove)

theorem publishes_run (db : Database) (txs : List Transaction) :
    Publishes db (run (ControlPlane.step svc) db txs) :=
  run_relation (I := fun _ => True) (R := Publishes) (fun _ => publishes_of_tables rfl rfl)
    (fun _ _ _ => publishes_trans) (fun _ _ _ _ _ => trivial) (fun _ _ _ _ h => publishes_step h)
    txs trivial

end Numbers

section Rejections
variable {svc : Service}

/-- Some run of a context does not pass the rules for its asserted outcome. -/
def FailsValidation (nfc : Text → Text) (context : CompletionContext)
    (outcomes : List CompletionSourceOutcome) : Prop :=
  ∃ facts ∈ context.runs, ∃ outcome,
    outcomes.find? (fun o => o.runId = facts.run.id) = some outcome ∧
    ∀ result, prepareRun nfc context.command facts outcome context.dbNow ≠ .ok result

def SynthesisedOutcomes (context : CompletionContext) (key : Bytes)
    (outcomes : List CompletionSourceOutcome) : Prop :=
  ∃ released status retryAfterAt, releasedCommand context key = .ok released ∧
    ¬((readyRuns context).all id = false ∧ released = none) ∧
    releasedFacts released = .ok (status, retryAfterAt) ∧
    context.runs.mapM (recoveryOutcome status context.dbNow retryAfterAt) = .ok outcomes

theorem plan_refused {nfc : Text → Text} {context : CompletionContext}
    {outcomes : List CompletionSourceOutcome} (h : FailsValidation nfc context outcomes)
    (requestHash : Digest) (plan : CompletionPlan) :
    prepareServerCompletion nfc context outcomes requestHash ≠ .ok plan := by
  intro hplan
  obtain ⟨facts, hfacts, outcome, hfind, hnever⟩ := h
  obtain ⟨results, hplanned⟩ := prepareServerCompletion_eq_ok.mp hplan
  obtain ⟨result, _, other, hother, hprepare⟩ :=
    forall₂_mem_left hplanned.finalized facts (mem_byRunId.mpr hfacts)
  obtain rfl := Option.some.inj (hfind.symm.trans hother)
  exact hnever result hprepare

theorem recovery_refused {nfc : Text → Text} {context : CompletionContext} {key : Bytes}
    {outcomes : List CompletionSourceOutcome} (hsynthesised : SynthesisedOutcomes context key outcomes)
    (h : FailsValidation nfc context outcomes) (answer : Option CompletionPlan) :
    prepareStaleRecovery nfc context key ≠ .ok answer := by
  intro hanswer
  obtain ⟨released, status, retryAfterAt, hreleased, hformed, hfacts, houtcomes⟩ := hsynthesised
  obtain ⟨_, _, hanswer⟩ := bind_eq_ok.mp hanswer
  have hruns : context.runs ≠ [] := by
    obtain ⟨facts, hmem, _⟩ := h
    exact List.ne_nil_of_mem hmem
  rw [if_neg hruns] at hanswer
  obtain ⟨other, hother, hanswer⟩ := bind_eq_ok.mp hanswer
  obtain rfl := Except.ok.inj (hreleased.symm.trans hother)
  rw [if_neg hformed] at hanswer
  obtain ⟨plan, hplan, _⟩ := bind_eq_ok.mp hanswer
  obtain ⟨base, hbase, hplan⟩ := bind_eq_ok.mp hplan
  obtain rfl := Except.ok.inj (hfacts.symm.trans hbase)
  obtain ⟨again, hagain, hplan⟩ := bind_eq_ok.mp hplan
  obtain rfl := Except.ok.inj (houtcomes.symm.trans hagain)
  obtain ⟨server, hserver, _⟩ := bind_eq_ok.mp hplan
  exact plan_refused h _ server hserver

/-- A transaction with a plan one of whose runs is invalid. A pass meets such a
    plan at some command, in the state the commands before it have left. -/
def InvalidPlan (svc : Service) (db : Database) (tx : Transaction) : Prop :=
  match tx.operation with
  | .complete commandId request => ∃ context,
      loadLockedCompletionContext db commandId request.attempt (tx.clock 0) false = .ok context ∧
      FailsValidation svc.nfc context request.sourceOutcomes
  | .recoverDue scopeVersion => ∃ done commandId rest mid row context outcomes,
      (reconcilableRows db scopeVersion).map (fun row => row.state.id) = done ++ commandId :: rest ∧
      reconcileRows svc (tx.clock 0) tx.clock 1 db done = .ok mid ∧
      mid.commands.find? commandId = some row ∧
      ((row.state.status = .running ∨ row.state.status = .staleAbandoned) ∧
        mid.runsOf commandId row.state.attempt ≠ []) ∧
      loadLockedCompletionContext mid commandId row.state.attempt (tx.clock (done.length + 1))
        true = .ok context ∧
      SynthesisedOutcomes context svc.retryJitterKey outcomes ∧
      FailsValidation svc.nfc context outcomes
  | _ => False

theorem reconcileRows_append {now : Instant} {clock : ℕ → Instant} {k : ℕ} {db next : Database}
    {done rest : List UUID} (h : reconcileRows svc now clock k db (done ++ rest) = .ok next) :
    ∃ mid, reconcileRows svc now clock k db done = .ok mid ∧
      reconcileRows svc now clock (k + done.length) mid rest = .ok next := by
  induction done generalizing k db with
  | nil => exact ⟨db, rfl, h⟩
  | cons commandId done ih =>
    obtain ⟨first, hfirst, h⟩ := bind_eq_ok.mp h
    obtain ⟨mid, hmid, hrest⟩ := ih h
    refine ⟨mid, bind_eq_ok.mpr ⟨first, hfirst, hmid⟩, ?_⟩
    rw [List.length_cons, show k + (done.length + 1) = k + 1 + done.length by omega]
    exact hrest

theorem invalidPlan_unchanged {db : Database} {tx : Transaction} (h : InvalidPlan svc db tx) :
    attempt (ControlPlane.step svc) db tx = db := by
  rcases attempt_cases (ControlPlane.step svc) db tx with hsame | hstep
  · exact hsame
  obtain ⟨operation, clock, ids⟩ := tx
  generalize hnext : attempt (ControlPlane.step svc) db ⟨operation, clock, ids⟩ = next at hstep ⊢
  cases operation with
  | complete commandId request =>
    obtain ⟨context, hcontext, hfails⟩ := h
    obtain ⟨completed, hcompleted, hstep⟩ := bind_eq_ok.mp hstep
    obtain rfl := Except.ok.inj hstep
    obtain ⟨_, _, hcompleted⟩ := bind_eq_ok.mp hcompleted
    obtain ⟨_, hcompleted⟩ := require_bind.mp hcompleted
    split at hcompleted
    · obtain ⟨_, hcompleted⟩ := require_bind.mp hcompleted
      obtain ⟨_, _, hcompleted⟩ := bind_eq_ok.mp hcompleted
      obtain rfl := Except.ok.inj hcompleted
      rfl
    · obtain ⟨other, hother, hcompleted⟩ := bind_eq_ok.mp hcompleted
      obtain rfl := Except.ok.inj (hcontext.symm.trans hother)
      obtain ⟨plan, hplan, _⟩ := bind_eq_ok.mp hcompleted
      obtain ⟨_, hplan⟩ := require_bind.mp hplan
      exact absurd hplan (plan_refused hfails _ plan)
  | recoverDue scopeVersion =>
    obtain ⟨done, commandId, rest, mid, row, context, outcomes, hrows, hdone, hrow, hlive, hcontext,
      hsynthesised, hfails⟩ := h
    obtain ⟨recovered, hrecovered, hstep⟩ := bind_eq_ok.mp hstep
    obtain ⟨reconciled, hreconciled, _⟩ := bind_eq_ok.mp hrecovered
    rw [hrows] at hreconciled
    obtain ⟨other, hother, hreconciled⟩ := reconcileRows_append hreconciled
    obtain rfl := Except.ok.inj (hdone.symm.trans hother)
    obtain ⟨after, hafter, _⟩ := bind_eq_ok.mp hreconciled
    obtain ⟨found, hfound, hafter⟩ := bind_eq_ok.mp hafter
    obtain rfl := Option.some.inj (hrow.symm.trans (present_eq_ok.mp hfound))
    rw [if_pos hlive] at hafter
    obtain ⟨locked, hlocked, hafter⟩ := bind_eq_ok.mp hafter
    rw [Nat.add_comm] at hlocked
    obtain rfl := Except.ok.inj (hcontext.symm.trans hlocked)
    obtain ⟨answer, hanswer, _⟩ := bind_eq_ok.mp hafter
    exact absurd hanswer (recovery_refused hsynthesised hfails answer)
  | _ => exact h.elim

end Rejections

section Results
variable {svc : Service}

/-- A plan that passed the completion rules, or a recovery plan that did. -/
def AcceptedPlan (svc : Service) (context : CompletionContext) (plan : CompletionPlan) : Prop :=
  (∃ outcomes requestHash,
      prepareServerCompletion svc.nfc context outcomes requestHash = .ok plan) ∨
    prepareStaleRecovery svc.nfc context svc.retryJitterKey = .ok (some plan)

theorem acceptedPlan_finalizes {context : CompletionContext} {plan : CompletionPlan}
    (h : AcceptedPlan svc context plan) : ∃ results, Finalizes svc.nfc context plan results := by
  rcases h with ⟨outcomes, requestHash, hplan⟩ | hrecovery
  · obtain ⟨results, hplanned⟩ := prepareServerCompletion_eq_ok.mp hplan
    exact ⟨results, finalizes_of_planned hplanned⟩
  · exact finalizes_of_recovery hrecovery

/-- The three promises of finalization in a database. -/
structure FinalizationFacts (svc : Service) (db : Database) : Prop where
  effect : ∀ commandId attempt now allow context plan persisted,
    loadLockedCompletionContext db commandId attempt now allow = .ok context →
    AcceptedPlan svc context plan →
    persistCompletionPlan db context plan svc.retryJitterKey = .ok persisted →
    Effect db persisted.1 plan
  numbers : ∀ sourceId, (publicationsOf db sourceId).map (·.sequence) =
    List.range' 1 (publicationsOf db sourceId).length
  order : ∀ txs, ∃ added,
    (run (ControlPlane.step svc) db txs).manifests.rows = db.manifests.rows ++ added
  rollback : ∀ tx, InvalidPlan svc db tx → attempt (ControlPlane.step svc) db tx = db

/-- Finalization touches what it must, in every database a collection reaches. -/
theorem finalization_facts {start : Database} (hbare : Bare start) (txs : List Transaction) :
    FinalizationFacts svc (run (ControlPlane.step svc) start txs) where
  effect := by
    intro commandId attempt now allow context plan persisted hcontext hplan hpersisted
    obtain ⟨row, hlocked⟩ := loadLockedCompletionContext_locked.mp hcontext
    obtain ⟨results, hfinalizes⟩ := acceptedPlan_finalizes hplan
    obtain ⟨command, hcommand⟩ := persistCompletionPlan_persisted hpersisted
    exact effect_persisted (storeInvariant_run (storeInvariant_bare hbare) txs) hlocked hfinalizes
      hcommand
  numbers := fun sourceId =>
    counter_map ((publishes_run start txs).1 (numbered_bare hbare) sourceId).1
  order := fun later => (publishes_run _ later).2
  rollback := fun _ => invalidPlan_unchanged

end Results

section Sample

/-- One source: claimed, one terminal page, and then reported as succeeded. -/
def publishedPages : List Transaction :=
  ⟨.materialize (storyCommand [3]), fun _ => 10, storyIds 0⟩ :: storyClaim [3] 1 20 ++
    [⟨.commitPage 1103 (storyPage 1 firstAttempt_valid), fun _ => 40, storyIds 1⟩]

def publishedReport : CompletionRequest :=
  storyReport 1 firstAttempt_valid [outcomeOf
    (storedRun (run (ControlPlane.step storyService) storyStart publishedPages) 1103)
    .succeeded none] (by simp)

def publishedStory : List Transaction :=
  publishedPages ++ [⟨.complete 2 publishedReport, fun _ => 50, storyIds 1⟩]

/-- The first publication of a source has number 1. -/
theorem finalization_facts_sample :
    let db := run (ControlPlane.step storyService) storyStart publishedStory
    (publicationsOf db 3).map (·.sequence) = [1] ∧ FinalizationFacts storyService db :=
  ⟨by decide +kernel, finalization_facts storyStart_bare publishedStory⟩

end Sample

end PredictionMarketMonitor.PublicationOrder
