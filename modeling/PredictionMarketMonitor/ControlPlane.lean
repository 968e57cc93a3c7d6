import PredictionMarketMonitor.CompletionStore

set_option autoImplicit false

/-!
# The control plane as a state machine

Transactions over one database, in any order: the collector's and the
reconciler's operations, the materialization of commands, and changes of source
governance. Each transaction moves each command by operations of its own
lifecycle.
-/
namespace PredictionMarketMonitor.ControlPlane

open CanonicalJson CivilTime ClaimPolicy CollectionBase CollectionModels CommandLifecycle
open CommandStore Completion CompletionStore ControlPlaneTables Dispatch FallibleSteps KeyedTable
open PageCommit PageStore Sha256 StaleRecovery

section Machine
variable (svc : Service)

/-- Changes made outside collection: activation state of a source, new
    append-only decisions and verified budget records. -/
inductive Governance
  | setSource (row : SourceRow)
  | addAuthorization (row : AuthorizationRow)
  | addBudgetRecord (row : BudgetRecordRow)

def govern (db : Database) : Governance → Result Database
  | .setSource row => .ok { db with
    sources := db.sources.update row.id (fun s => { row with id := s.id }) (fun _ => rfl) }
  | .addAuthorization row => do
    let authorizations ← present (db.authorizations.insert? row) .integrity
    return { db with authorizations := authorizations }
  | .addBudgetRecord row => do
    let budgetRecords ← present (db.budgetRecords.insert? row) .integrity
    return { db with budgetRecords := budgetRecords }

def materialize (db : Database) (row : CommandRow) : Result Database := do
  require (row.state.status = .queued ∧ row.state.attempt = 1 ∧
    row.state.reservationNonceHash = none ∧ row.state.leaseHash = none) .integrity
  let commands ← present (db.commands.insert? row) .integrity
  return { db with commands := commands }

inductive Operation
  | materialize (row : CommandRow)
  | govern (change : Governance)
  | reserve (commandId : UUID) (reservation : DispatchReservation)
  | confirm (commandId : UUID) (confirmation : DispatchConfirmation)
  | claim (commandId : UUID) (credentials : ClaimCredentials) (sourceIds : List UUID)
  | heartbeat (commandId : UUID) (credentials : ClaimCredentials)
  | commitPage (runId : UUID) (request : PageCommitRequest)
  | attachSkip (operation : SkipDecisionOperation)
  | complete (commandId : UUID) (request : CompletionRequest)
  | recoverDue (scopeVersion : String)

/-- One transaction: its readings of the database clock and the identities it draws. -/
structure Transaction where
  operation : Operation
  clock : ℕ → Instant
  ids : FreshIds

def step (db : Database) (tx : Transaction) : Result Database :=
  match tx.operation with
  | .materialize row => materialize db row
  | .govern change => govern db change
  | .reserve commandId reservation => reserveCommand db commandId reservation (tx.clock 0)
  | .confirm commandId confirmation => confirmCommand db commandId confirmation (tx.clock 0)
  | .claim commandId credentials sourceIds => do
    let claimed ← claim svc db commandId credentials sourceIds tx.clock tx.ids
    return claimed.1
  | .heartbeat commandId credentials =>
    heartbeat db commandId credentials (tx.clock 0) (tx.clock 1)
  | .commitPage runId request => do
    let committed ← executePageCommit svc db runId request tx.clock tx.ids.page
    return committed.1
  | .attachSkip operation => do
    let attached ← attachSkipDecision svc db operation tx.clock tx.ids
    return attached.1
  | .complete commandId request => do
    let completed ← executeCompletion svc db commandId request (tx.clock 0)
    return completed.1
  | .recoverDue scopeVersion => do
    let recovered ← recoverDueCommands svc db scopeVersion tx.clock
    return recovered.1

end Machine

section Rows

def SameIdentity (s t : CommandState) : Prop :=
  t.id = s.id ∧ t.scopeVersion = s.scopeVersion ∧ t.sourceIds = s.sourceIds ∧ t.kind = s.kind

theorem change_identity {s t : CommandState} {op : CommandLifecycle.Operation}
    (h : Change s op t) : SameIdentity s t := by
  cases h with
  | reserve r now h =>
    obtain ⟨_, _, _, _, rfl⟩ := reserveDispatch_eq_ok.mp h
    exact ⟨rfl, rfl, rfl, rfl⟩
  | _ => exact ⟨rfl, rfl, rfl, rfl⟩

theorem applyCommandState_of_identity {row state : CommandState} (h : SameIdentity row state) :
    applyCommandState row state = state := by
  obtain ⟨rid, rscope, rsources, rkind⟩ := row
  obtain ⟨sid, sscope, ssources, skind⟩ := state
  obtain ⟨rfl, rfl, rfl, rfl⟩ := h
  rfl

theorem lockedCommand_eq_ok {db : Database} {commandId : UUID} {row : CommandRow} :
    db.lockedCommand commandId = .ok row ↔ db.commands.find? commandId = some row :=
  present_eq_ok

theorem find_setCommand_ne {db : Database} {state : CommandState} {id : UUID} (h : id ≠ state.id) :
    (db.setCommand state).commands.find? id = db.commands.find? id := by
  simp only [Database.setCommand]
  rw [Table.find?_update_ne h]

theorem find_setCommand {db : Database} {row : CommandRow} {state : CommandState}
    (hrow : db.commands.find? state.id = some row) (hid : SameIdentity row.state state) (id : UUID) :
    (db.setCommand state).commands.find? id =
      if id = state.id then some { row with state := state } else db.commands.find? id := by
  split
  · rename_i h
    subst h
    simp only [Database.setCommand]
    rw [Table.find?_update_self, hrow, Option.map_some, applyCommandState_of_identity hid]
  · rename_i h
    exact find_setCommand_ne h

theorem mem_runsOf {db : Database} {commandId : UUID} {attempt : ℕ} {r : RunState} :
    r ∈ db.runsOf commandId attempt ↔
      r ∈ db.runs ∧ r.commandId = commandId ∧ r.attempt = attempt := by
  rw [Database.runsOf, List.mem_insertionSort, List.mem_filter, decide_eq_true_eq]
  rfl

end Rows

section Frames
variable {svc : Service}

theorem addBudgetDecisions_frame {db next : Database} {rows : List BudgetDecisionRow}
    (h : addBudgetDecisions db rows = .ok next) :
    ∃ budgetDecisions, next = { db with budgetDecisions := budgetDecisions } := by
  induction rows generalizing db with
  | nil => exact ⟨db.budgetDecisions, (Except.ok.inj h).symm⟩
  | cons row rest ih =>
    obtain ⟨budgetDecisions, _, h⟩ := bind_eq_ok.mp h
    obtain ⟨others, rfl⟩ := ih h
    exact ⟨others, rfl⟩

theorem claimSourcePolicies_frame {db : Database} {sourceIds : List UUID} {scope : String}
    {now : Instant} {ids : FreshIds} {decided : Database × List ClaimSourcePolicy}
    (h : claimSourcePolicies svc db sourceIds scope now ids = .ok decided) :
    ∃ budgetDecisions, decided.1 = { db with budgetDecisions := budgetDecisions } := by
  obtain ⟨_, h⟩ := require_bind.mp h
  obtain ⟨derived, _, h⟩ := bind_eq_ok.mp h
  obtain ⟨next, hnext, h⟩ := bind_eq_ok.mp h
  obtain rfl := Except.ok.inj h
  exact addBudgetDecisions_frame hnext

theorem claimCheckpoint_frame {db : Database} {sourceId : UUID} {scope : String} {ids : FreshIds}
    {located : Database × CheckpointState}
    (h : claimCheckpoint db sourceId scope ids = .ok located) :
    ∃ checkpoints, located.1 = { db with checkpoints := checkpoints } := by
  unfold claimCheckpoint at h
  split at h
  · obtain rfl := Except.ok.inj h
    exact ⟨db.checkpoints, rfl⟩
  · obtain ⟨checkpoints, _, h⟩ := bind_eq_ok.mp h
    obtain rfl := Except.ok.inj h
    exact ⟨checkpoints, rfl⟩

theorem addRun_eq_ok {db next : Database} {run : RunState} {now : Instant} :
    addRun db run now = .ok next ↔ RunAdmitted db run now ∧
      ∃ runs, db.runs.insert? run = some runs ∧ next = { db with runs := runs } := by
  rw [addRun, require_bind, bind_eq_ok]
  simp only [present_eq_ok, pure, Except.pure, Except.ok.injEq, eq_comm (b := next)]

theorem claimRun_frame {nfc : Text → Text} {db : Database} {state : CommandState} {lease : Digest}
    {now statementNow : Instant} {policies : List ClaimSourcePolicy} {ids : FreshIds}
    {sourceId : UUID} {claimed : Database × RunState}
    (h : claimRun nfc db state lease now statementNow policies ids sourceId = .ok claimed) :
    ∃ runs checkpoints, claimed.1 = { db with runs := runs, checkpoints := checkpoints } := by
  obtain ⟨located, hlocated, h⟩ := bind_eq_ok.mp h
  obtain ⟨policy, _, h⟩ := bind_eq_ok.mp h
  obtain ⟨started, _, h⟩ := bind_eq_ok.mp h
  obtain ⟨next, hnext, h⟩ := bind_eq_ok.mp h
  obtain rfl := Except.ok.inj h
  obtain ⟨checkpoints, hlocated⟩ := claimCheckpoint_frame hlocated
  obtain ⟨_, runs, _, rfl⟩ := addRun_eq_ok.mp hnext
  exact ⟨runs, checkpoints, by rw [hlocated]⟩

theorem claimEach_frame {nfc : Text → Text} {state : CommandState} {lease : Digest}
    {now statementNow : Instant} {policies : List ClaimSourcePolicy} {ids : FreshIds}
    {db : Database} {sourceIds : List UUID} {claimed : Database × List RunState}
    (h : claimEach nfc state lease now statementNow policies ids db sourceIds = .ok claimed) :
    ∃ runs checkpoints, claimed.1 = { db with runs := runs, checkpoints := checkpoints } := by
  induction sourceIds generalizing db claimed with
  | nil =>
    obtain rfl := Except.ok.inj h
    exact ⟨db.runs, db.checkpoints, rfl⟩
  | cons sourceId rest ih =>
    obtain ⟨first, hfirst, h⟩ := bind_eq_ok.mp h
    obtain ⟨others, hothers, h⟩ := bind_eq_ok.mp h
    obtain rfl := Except.ok.inj h
    obtain ⟨_, _, hfirst⟩ := claimRun_frame hfirst
    obtain ⟨runs, checkpoints, hothers⟩ := ih hothers
    exact ⟨runs, checkpoints, by rw [hothers, hfirst]⟩

theorem persistPublication_frame {db : Database} {draft : PublicationDraft} {now : Instant}
    {published : Database × CompletionPublicationResponse}
    (h : persistPublication db draft now = .ok published) :
    ∃ sequences manifests,
      published.1 = { db with sequences := sequences, manifests := manifests } := by
  obtain ⟨manifests, _, h⟩ := bind_eq_ok.mp h
  obtain rfl := Except.ok.inj h
  exact ⟨_, manifests, rfl⟩

theorem persistPublications_frame {now : Instant} {db : Database} {drafts : List PublicationDraft}
    {published : Database × List CompletionPublicationResponse}
    (h : persistPublications now db drafts = .ok published) :
    ∃ sequences manifests,
      published.1 = { db with sequences := sequences, manifests := manifests } := by
  induction drafts generalizing db published with
  | nil =>
    obtain rfl := Except.ok.inj h
    exact ⟨db.sequences, db.manifests, rfl⟩
  | cons draft rest ih =>
    obtain ⟨first, hfirst, h⟩ := bind_eq_ok.mp h
    obtain ⟨others, hothers, h⟩ := bind_eq_ok.mp h
    obtain rfl := Except.ok.inj h
    obtain ⟨_, _, hfirst⟩ := persistPublication_frame hfirst
    obtain ⟨sequences, manifests, hothers⟩ := ih hothers
    exact ⟨sequences, manifests, by rw [hothers, hfirst]⟩

theorem persistRun_frame (facts : List RunCompletionFacts) (db : Database) (state : RunState) :
    ∃ runs checkpoints,
      persistRun facts db state = { db with runs := runs, checkpoints := checkpoints } := by
  unfold persistRun
  split
  · split
    · exact ⟨_, _, rfl⟩
    · exact ⟨_, db.checkpoints, rfl⟩
  · exact ⟨_, db.checkpoints, rfl⟩

theorem persistRuns_frame (facts : List RunCompletionFacts) (db : Database)
    (states : List RunState) : ∃ runs checkpoints,
      states.foldl (persistRun facts) db = { db with runs := runs, checkpoints := checkpoints } := by
  induction states generalizing db with
  | nil => exact ⟨db.runs, db.checkpoints, rfl⟩
  | cons state rest ih =>
    obtain ⟨_, _, hfirst⟩ := persistRun_frame facts db state
    obtain ⟨runs, checkpoints, hrest⟩ := ih (persistRun facts db state)
    exact ⟨runs, checkpoints, by rw [List.foldl_cons, hrest, hfirst]⟩

theorem persistCompletionPlan_frame {db : Database} {context : CompletionContext}
    {plan : CompletionPlan} {key : Bytes}
    {persisted : Database × List CompletionPublicationResponse}
    (h : persistCompletionPlan db context plan key = .ok persisted) :
    ∃ sequences manifests runs checkpoints command,
      completedCommand context.command plan key = .ok command ∧
      persisted.1 = ({ db with
        sequences := sequences
        manifests := manifests
        runs := runs
        checkpoints := checkpoints } : Database).setCommand command := by
  obtain ⟨published, hpublished, h⟩ := bind_eq_ok.mp h
  obtain ⟨_, h⟩ := require_bind.mp h
  obtain ⟨command, hcommand, h⟩ := bind_eq_ok.mp h
  obtain rfl := Except.ok.inj h
  obtain ⟨sequences, manifests, hpublished⟩ := persistPublications_frame hpublished
  obtain ⟨runs, checkpoints, hruns⟩ := persistRuns_frame context.runs published.1 plan.runs
  exact ⟨sequences, manifests, runs, checkpoints, command, hcommand, by rw [hruns, hpublished]⟩

theorem loadLockedCompletionContext_eq_ok {db : Database} {commandId : UUID} {attempt : ℕ}
    {now : Instant} {allow : Bool} {context : CompletionContext} :
    loadLockedCompletionContext db commandId attempt now allow = .ok context ↔
      ∃ row facts, db.commands.find? commandId = some row ∧
        List.Forall₂ (fun r f => completionFacts db now allow r = .ok f)
          (db.runsOf commandId attempt) facts ∧ context = ⟨row.state, facts, now⟩ := by
  rw [loadLockedCompletionContext, bind_eq_ok]
  simp only [lockedCommand_eq_ok, bind_eq_ok, mapM_forall₂, pure, Except.pure, Except.ok.injEq,
    eq_comm (b := context), exists_and_left]

theorem claim_frame {db : Database} {commandId : UUID} {credentials : ClaimCredentials}
    {sourceIds : List UUID} {clock : ℕ → Instant} {ids : FreshIds}
    {claimed : Database × ClaimResult}
    (h : claim svc db commandId credentials sourceIds clock ids = .ok claimed) :
    ∃ row command budgetDecisions runs checkpoints,
      db.commands.find? commandId = some row ∧
      claimCommand row.state credentials (clock 1) = .ok command ∧
      claimed.1 = ({ db with
        budgetDecisions := budgetDecisions
        runs := runs
        checkpoints := checkpoints } : Database).setCommand command := by
  obtain ⟨_, _, h⟩ := bind_eq_ok.mp h
  obtain ⟨decided, hdecided, h⟩ := bind_eq_ok.mp h
  obtain ⟨budgetDecisions, hdecided⟩ := claimSourcePolicies_frame hdecided
  obtain ⟨row, hrow, h⟩ := bind_eq_ok.mp h
  have hfind := lockedCommand_eq_ok.mp hrow
  rw [hdecided] at hfind
  obtain ⟨_, h⟩ := require_bind.mp h
  obtain ⟨command, hcommand, h⟩ := bind_eq_ok.mp h
  dsimp only at h
  split at h
  · obtain rfl := Except.ok.inj h
    exact ⟨row, command, budgetDecisions, db.runs, db.checkpoints, hfind, hcommand,
      by rw [hdecided]⟩
  · obtain ⟨lease, _, h⟩ := bind_eq_ok.mp h
    obtain ⟨eligible, _, h⟩ := bind_eq_ok.mp h
    obtain ⟨created, hcreated, h⟩ := bind_eq_ok.mp h
    obtain ⟨_, h⟩ := require_bind.mp h
    obtain rfl := Except.ok.inj h
    obtain ⟨runs, checkpoints, hcreated⟩ := claimEach_frame hcreated
    exact ⟨row, command, budgetDecisions, runs, checkpoints, hfind, hcommand,
      by rw [hcreated, hdecided]⟩

theorem executePageCommit_frame {db : Database} {runId : UUID} {request : PageCommitRequest}
    {clock : ℕ → Instant} {newId : ℕ → UUID} {committed : Database × PageCommitOutcome}
    (h : executePageCommit svc db runId request clock newId = .ok committed) :
    ∃ commits observedItems posts checkpoints runs, committed.1 = { db with
      commits := commits
      observedItems := observedItems
      posts := posts
      checkpoints := checkpoints
      runs := runs } := by
  obtain ⟨stream, _, h⟩ := bind_eq_ok.mp h
  obtain ⟨call, _, h⟩ := bind_eq_ok.mp h
  obtain ⟨plan, _, h⟩ := bind_eq_ok.mp h
  dsimp only at h
  split at h
  · obtain rfl := Except.ok.inj h
    exact ⟨db.commits, db.observedItems, db.posts, db.checkpoints, db.runs, rfl⟩
  · obtain ⟨_, h⟩ := require_bind.mp h
    obtain ⟨commits, _, h⟩ := bind_eq_ok.mp h
    obtain rfl := Except.ok.inj h
    exact ⟨commits, _, _, _, _, rfl⟩

theorem attachProof_frame {db next : Database} {source : SourceRow} {current : AuthorizationRow}
    {run : RunState} {op : SkipDecisionOperation} {now statementNow : Instant} {decisionId : UUID}
    (h : attachProof svc db source current run op now statementNow decisionId = .ok next) :
    ∃ sources authorizations budgetDecisions runs, next = { db with
      sources := sources
      authorizations := authorizations
      budgetDecisions := budgetDecisions
      runs := runs } := by
  have hpolicy (h : attachPolicyProof svc db source current run now decisionId = .ok next) :
      ∃ sources authorizations runs, next = { db with
        sources := sources
        authorizations := authorizations
        runs := runs } := by
    obtain ⟨authorizations, _, h⟩ := bind_eq_ok.mp h
    obtain ⟨_, h⟩ := require_bind.mp h
    exact ⟨_, authorizations, _, (Except.ok.inj h).symm⟩
  have hquota (h : attachQuotaProof db source run now statementNow decisionId = .ok next) :
      ∃ budgetDecisions runs, next = { db with
        budgetDecisions := budgetDecisions
        runs := runs } := by
    obtain ⟨_, _, h⟩ := bind_eq_ok.mp h
    obtain ⟨_, _, h⟩ := bind_eq_ok.mp h
    obtain ⟨_, h⟩ := require_bind.mp h
    obtain ⟨_, _, h⟩ := bind_eq_ok.mp h
    obtain ⟨_, h⟩ := require_bind.mp h
    obtain ⟨budgetDecisions, _, h⟩ := bind_eq_ok.mp h
    obtain ⟨_, h⟩ := require_bind.mp h
    exact ⟨budgetDecisions, _, (Except.ok.inj h).symm⟩
  unfold attachProof at h
  split at h
  · obtain ⟨sources, authorizations, runs, rfl⟩ := hpolicy h
    exact ⟨sources, authorizations, db.budgetDecisions, runs, rfl⟩
  · obtain ⟨sources, authorizations, runs, rfl⟩ := hpolicy h
    exact ⟨sources, authorizations, db.budgetDecisions, runs, rfl⟩
  · obtain ⟨budgetDecisions, runs, rfl⟩ := hquota h
    exact ⟨db.sources, db.authorizations, budgetDecisions, runs, rfl⟩

theorem attachSkipDecision_frame {db : Database} {op : SkipDecisionOperation}
    {clock : ℕ → Instant} {ids : FreshIds} {attached : Database × ℕ × Bytes}
    (h : attachSkipDecision svc db op clock ids = .ok attached) :
    ∃ sources authorizations budgetDecisions runs skipObservations, attached.1 = { db with
      sources := sources
      authorizations := authorizations
      budgetDecisions := budgetDecisions
      runs := runs
      skipObservations := skipObservations } := by
  obtain ⟨run, _, h⟩ := bind_eq_ok.mp h
  obtain ⟨command, _, h⟩ := bind_eq_ok.mp h
  obtain ⟨_, h⟩ := require_bind.mp h
  split at h
  · obtain ⟨_, h⟩ := require_bind.mp h
    obtain ⟨_, h⟩ := require_bind.mp h
    obtain rfl := Except.ok.inj h
    exact ⟨db.sources, db.authorizations, db.budgetDecisions, db.runs, db.skipObservations, rfl⟩
  · obtain ⟨_, h⟩ := require_bind.mp h
    obtain ⟨_, h⟩ := require_bind.mp h
    obtain ⟨_, h⟩ := require_bind.mp h
    obtain ⟨current, _, h⟩ := bind_eq_ok.mp h
    obtain ⟨snapshot, _, h⟩ := bind_eq_ok.mp h
    obtain ⟨_, h⟩ := require_bind.mp h
    obtain ⟨proved, hproved, h⟩ := bind_eq_ok.mp h
    obtain ⟨skipObservations, _, h⟩ := bind_eq_ok.mp h
    obtain rfl := Except.ok.inj h
    obtain ⟨sources, authorizations, budgetDecisions, runs, rfl⟩ := attachProof_frame hproved
    exact ⟨sources, authorizations, budgetDecisions, runs, skipObservations, rfl⟩

theorem finalizeCommand_frame {db : Database} {commandId : UUID} {request : CompletionRequest}
    {now : Instant} {completed : Database × CompletionOutcome}
    (h : finalizeCommand svc db commandId request now = .ok completed) :
    ∃ row facts command sequences manifests runs checkpoints completions,
      db.commands.find? commandId = some row ∧
      CommandLifecycle.step svc.nfc row.state
        ⟨.complete request facts, now, svc.retryJitterKey⟩ = .ok command ∧
      db.completions.insert? {
        commandId := commandId, attempt := request.attempt
        completionIdempotencyKey := request.completionIdempotencyKey
        requestHash := completionRequestHash svc.nfc request
        responsePayload := completed.2.responseBytes } = some completions ∧
      completed.1 = { (({ db with
        sequences := sequences
        manifests := manifests
        runs := runs
        checkpoints := checkpoints } : Database).setCommand command) with
          completions := completions } ∧ completed.2.statusCode = 200 := by
  obtain ⟨context, hcontext, h⟩ := bind_eq_ok.mp h
  obtain ⟨plan, hplan, h⟩ := bind_eq_ok.mp h
  obtain ⟨persisted, hpersisted, h⟩ := bind_eq_ok.mp h
  obtain ⟨completions, hcompletions, h⟩ := bind_eq_ok.mp h
  obtain rfl := Except.ok.inj h
  obtain ⟨row, facts, hrow, _, rfl⟩ := loadLockedCompletionContext_eq_ok.mp hcontext
  obtain ⟨sequences, manifests, runs, checkpoints, command, hcommand, hnext⟩ :=
    persistCompletionPlan_frame hpersisted
  rw [hnext] at hcompletions
  exact ⟨row, facts, command, sequences, manifests, runs, checkpoints, completions, hrow,
    bind_eq_ok.mpr ⟨plan, hplan, hcommand⟩, present_eq_ok.mp hcompletions, by rw [hnext], rfl⟩

theorem reconcileRow_frame {db next : Database} {commandId : UUID} {now contextNow : Instant}
    (h : reconcileRow svc db commandId now contextNow = .ok next) :
    ∃ row, db.commands.find? commandId = some row ∧ (next = db ∨
      ∃ facts command sequences manifests runs checkpoints,
        reconcileCommand svc.nfc row.state facts now contextNow svc.retryJitterKey = .ok command ∧
        next = ({ db with
          sequences := sequences
          manifests := manifests
          runs := runs
          checkpoints := checkpoints } : Database).setCommand command) := by
  obtain ⟨row, hrow, h⟩ := bind_eq_ok.mp h
  have hfind := present_eq_ok.mp hrow
  refine ⟨row, hfind, ?_⟩
  split at h
  · rename_i hrecover
    obtain ⟨context, hcontext, h⟩ := bind_eq_ok.mp h
    obtain ⟨other, facts, hother, hfacts, rfl⟩ := loadLockedCompletionContext_eq_ok.mp hcontext
    obtain rfl := Option.some.inj (hfind.symm.trans hother)
    obtain ⟨answer, hanswer, h⟩ := bind_eq_ok.mp h
    cases answer with
    | none => exact .inl (Except.ok.inj h).symm
    | some plan =>
      obtain ⟨persisted, hpersisted, h⟩ := bind_eq_ok.mp h
      obtain rfl := Except.ok.inj h
      obtain ⟨sequences, manifests, runs, checkpoints, command, hcommand, hnext⟩ :=
        persistCompletionPlan_frame hpersisted
      have hruns : facts ≠ [] := by
        rintro rfl
        exact hrecover.2 (List.forall₂_nil_right_iff.mp hfacts)
      refine .inr ⟨facts, command, sequences, manifests, runs, checkpoints, ?_, hnext⟩
      simp only [reconcileCommand, if_pos (And.intro hrecover.1 hruns), hanswer, ok_bind]
      exact hcommand
  · obtain ⟨state, hstate, h⟩ := bind_eq_ok.mp h
    obtain rfl := Except.ok.inj h
    refine .inr ⟨[], state, db.sequences, db.manifests, db.runs, db.checkpoints, ?_, rfl⟩
    simp only [reconcileCommand, ne_eq, not_true_eq_false, and_false, if_false]
    exact hstate

end Frames

section Refinement
variable {svc : Service}

/-- Every stored command moves by operations of its own lifecycle, and by
    reservations only where `reserved` allows it. -/
def CommandsEvolve (nfc : Text → Text) (reserved : UUID → Prop) (db next : Database) : Prop :=
  ∀ id row, db.commands.find? id = some row → ∃ calls,
    next.commands.find? id =
      some { row with state := run (CommandLifecycle.step nfc) row.state calls } ∧
    (calls.filterMap leaseToken? = [] ∨ reserved id)

theorem commandsEvolve_of_commands {nfc : Text → Text} {reserved : UUID → Prop}
    {db next : Database} (h : next.commands = db.commands) :
    CommandsEvolve nfc reserved db next := by
  intro id row hrow
  exact ⟨[], by rw [h]; exact hrow, .inl rfl⟩

theorem commandsEvolve_trans {nfc : Text → Text} {reserved : UUID → Prop} {db mid next : Database}
    (h : CommandsEvolve nfc reserved db mid) (k : CommandsEvolve nfc reserved mid next) :
    CommandsEvolve nfc reserved db next := by
  intro id row hrow
  obtain ⟨calls, hmid, hcalls⟩ := h id row hrow
  obtain ⟨later, hnext, hlater⟩ := k id _ hmid
  refine ⟨calls ++ later, by rw [hnext, run_append], ?_⟩
  rcases hcalls with hcalls | hreserved
  · rcases hlater with hlater | hreserved
    · exact .inl (by rw [List.filterMap_append, hcalls, hlater]; rfl)
    · exact .inr hreserved
  · exact .inr hreserved

theorem commandsEvolve_setCommand {nfc : Text → Text} {reserved : UUID → Prop}
    {db base : Database} {commandId : UUID} {row : CommandRow} {state : CommandState} {call : Call}
    (hbase : base.commands = db.commands) (hrow : db.commands.find? commandId = some row)
    (hstep : CommandLifecycle.step nfc row.state call = .ok state)
    (hreserved : leaseToken? call = none ∨ reserved commandId) :
    CommandsEvolve nfc reserved db (base.setCommand state) := by
  have hid := change_identity (step_change hstep)
  have hkey : state.id = commandId := hid.1.trans (Table.find?_eq_some.mp hrow).2
  have hfind : base.commands.find? state.id = some row := by rw [hbase, hkey]; exact hrow
  intro id other hother
  rw [find_setCommand hfind hid]
  split
  · rename_i h
    rw [h, hkey, hrow] at hother
    obtain rfl := Option.some.inj hother
    refine ⟨[call], ?_, ?_⟩
    · rw [run_cons, attempt_of_ok hstep, run_nil]
    · rcases hreserved with hnone | hreserved
      · exact .inl (by simp [hnone])
      · exact .inr (by rw [h, hkey]; exact hreserved)
  · exact ⟨[], by rw [hbase]; exact hother, .inl rfl⟩

/-- Reserving a command is the one operation that hands out a new lease. -/
def Operation.Reserves : Operation → UUID → Prop
  | .reserve commandId _, id => id = commandId
  | _, _ => False

theorem commandsEvolve_claim {db : Database} {commandId : UUID} {credentials : ClaimCredentials}
    {sourceIds : List UUID} {clock : ℕ → Instant} {ids : FreshIds}
    {claimed : Database × ClaimResult}
    (h : claim svc db commandId credentials sourceIds clock ids = .ok claimed) :
    CommandsEvolve svc.nfc (fun _ => False) db claimed.1 := by
  obtain ⟨row, command, _, _, _, hrow, hcommand, hnext⟩ := claim_frame h
  have hstep : CommandLifecycle.step svc.nfc row.state ⟨.claim credentials, clock 1, []⟩ =
    .ok command := hcommand
  rw [hnext]
  exact commandsEvolve_setCommand rfl hrow hstep (.inl rfl)

theorem commandsEvolve_complete {db : Database} {commandId : UUID} {request : CompletionRequest}
    {now : Instant} {completed : Database × CompletionOutcome}
    (h : executeCompletion svc db commandId request now = .ok completed) :
    CommandsEvolve svc.nfc (fun _ => False) db completed.1 := by
  obtain ⟨_, _, h⟩ := bind_eq_ok.mp h
  obtain ⟨_, h⟩ := require_bind.mp h
  split at h
  · obtain ⟨_, h⟩ := require_bind.mp h
    obtain ⟨_, _, h⟩ := bind_eq_ok.mp h
    obtain rfl := Except.ok.inj h
    exact commandsEvolve_of_commands rfl
  · obtain ⟨row, facts, command, _, _, _, _, _, hrow, hstep, _, hnext, _⟩ := finalizeCommand_frame h
    have hevolve := @commandsEvolve_setCommand _ (fun _ => False) db _ _ _ _ _ rfl hrow hstep
      (.inl rfl)
    rw [hnext]
    exact hevolve

theorem commandsEvolve_reconcileRow {db next : Database} {commandId : UUID}
    {now contextNow : Instant} (h : reconcileRow svc db commandId now contextNow = .ok next)
    (hstatus : ∀ row, db.commands.find? commandId = some row → Reconcilable row.state.status) :
    CommandsEvolve svc.nfc (fun _ => False) db next ∧
      ∀ id, id ≠ commandId → next.commands.find? id = db.commands.find? id := by
  obtain ⟨row, hrow, rfl | ⟨facts, command, _, _, _, _, hcommand, rfl⟩⟩ := reconcileRow_frame h
  · exact ⟨commandsEvolve_of_commands rfl, fun _ _ => rfl⟩
  · have hstep : CommandLifecycle.step svc.nfc row.state
        ⟨.recover facts contextNow, now, svc.retryJitterKey⟩ = .ok command := by
      simp only [CommandLifecycle.step, if_pos (hstatus row hrow)]
      exact hcommand
    refine ⟨commandsEvolve_setCommand rfl hrow hstep (.inl rfl), fun id hne => ?_⟩
    have hid := (change_identity (step_change hstep)).1
    have hkey := (Table.find?_eq_some.mp hrow).2
    exact find_setCommand_ne (by rw [hid, hkey]; exact hne)

theorem commandsEvolve_reconcileRows {now : Instant} {clock : ℕ → Instant} {k : ℕ}
    {db next : Database} {commandIds : List UUID}
    (h : reconcileRows svc now clock k db commandIds = .ok next) (hdistinct : commandIds.Nodup)
    (hstatus : ∀ id ∈ commandIds, ∀ row, db.commands.find? id = some row →
      Reconcilable row.state.status) :
    CommandsEvolve svc.nfc (fun _ => False) db next := by
  induction commandIds generalizing k db with
  | nil =>
    obtain rfl := Except.ok.inj h
    exact commandsEvolve_of_commands rfl
  | cons commandId rest ih =>
    obtain ⟨mid, hmid, h⟩ := bind_eq_ok.mp h
    obtain ⟨hnotin, hdistinct⟩ := List.nodup_cons.mp hdistinct
    obtain ⟨hfirst, hothers⟩ := commandsEvolve_reconcileRow hmid (hstatus commandId (by simp))
    refine commandsEvolve_trans hfirst (ih h hdistinct fun id hid row hrow => ?_)
    rw [hothers id (fun heq => hnotin (heq ▸ hid))] at hrow
    exact hstatus id (by simp [hid]) row hrow

theorem mem_reconcilableRows {db : Database} {scopeVersion : String} {row : CommandRow} :
    row ∈ reconcilableRows db scopeVersion ↔
      row ∈ db.commands ∧ row.state.scopeVersion = scopeVersion ∧
        Reconcilable row.state.status := by
  rw [reconcilableRows, List.mem_insertionSort, List.mem_filter, decide_eq_true_eq]
  rfl

theorem reconcilableRows_distinct (db : Database) (scopeVersion : String) :
    ((reconcilableRows db scopeVersion).map (fun row => row.state.id)).Nodup := by
  refine (((List.perm_insertionSort _ _).map _).nodup_iff).mpr ?_
  exact db.commands.distinct.sublist (List.filter_sublist.map _)

theorem reconcilableRows_status {db : Database} {scopeVersion : String} {id : UUID}
    (hid : id ∈ (reconcilableRows db scopeVersion).map (fun row => row.state.id))
    {row : CommandRow} (hrow : db.commands.find? id = some row) :
    row.state.scopeVersion = scopeVersion ∧ Reconcilable row.state.status := by
  obtain ⟨other, hother, rfl⟩ := List.mem_map.mp hid
  obtain ⟨hmem, hfacts⟩ := mem_reconcilableRows.mp hother
  have hfind : db.commands.find? other.state.id = some other := Table.find?_of_mem hmem
  rw [hfind] at hrow
  exact Option.some.inj hrow ▸ hfacts

theorem commandsEvolve_step {db next : Database} {tx : Transaction}
    (h : step svc db tx = .ok next) :
    CommandsEvolve svc.nfc tx.operation.Reserves db next := by
  obtain ⟨operation, clock, ids⟩ := tx
  have hweaken {mid : Database} (h : CommandsEvolve svc.nfc (fun _ => False) db mid) :
      CommandsEvolve svc.nfc operation.Reserves db mid := by
    intro id row hrow
    obtain ⟨calls, hfind, hcalls⟩ := h id row hrow
    exact ⟨calls, hfind, hcalls.imp_right False.elim⟩
  cases operation with
  | materialize row =>
    obtain ⟨_, h⟩ := require_bind.mp h
    obtain ⟨commands, hcommands, h⟩ := bind_eq_ok.mp h
    obtain rfl := Except.ok.inj h
    intro id other hother
    refine ⟨[], ?_, .inl rfl⟩
    rw [run_nil, Table.find?_insert (present_eq_ok.mp hcommands)]
    split
    · rename_i hid
      have hfree := (Table.insert?_eq_some.mp (present_eq_ok.mp hcommands)).1
      rw [hid, hother] at hfree
      cases hfree
    · exact hother
  | govern change =>
    refine commandsEvolve_of_commands ?_
    cases change with
    | setSource row =>
      obtain rfl := Except.ok.inj h
      rfl
    | addAuthorization row =>
      obtain ⟨_, _, h⟩ := bind_eq_ok.mp h
      obtain rfl := Except.ok.inj h
      rfl
    | addBudgetRecord row =>
      obtain ⟨_, _, h⟩ := bind_eq_ok.mp h
      obtain rfl := Except.ok.inj h
      rfl
  | reserve commandId reservation =>
    obtain ⟨row, hrow, h⟩ := bind_eq_ok.mp h
    have hfind := lockedCommand_eq_ok.mp hrow
    obtain ⟨state, hstate, h⟩ := bind_eq_ok.mp h
    obtain rfl := Except.ok.inj h
    have hstep : CommandLifecycle.step svc.nfc row.state ⟨.reserve reservation, clock 0, []⟩ =
      .ok state := hstate
    exact commandsEvolve_setCommand rfl hfind hstep (.inr rfl)
  | confirm commandId confirmation =>
    obtain ⟨row, hrow, h⟩ := bind_eq_ok.mp h
    have hfind := lockedCommand_eq_ok.mp hrow
    obtain ⟨state, hstate, h⟩ := bind_eq_ok.mp h
    obtain rfl := Except.ok.inj h
    have hstep : CommandLifecycle.step svc.nfc row.state ⟨.confirm confirmation, clock 0, []⟩ =
      .ok state := hstate
    exact commandsEvolve_setCommand rfl hfind hstep (.inl rfl)
  | claim commandId credentials sourceIds =>
    obtain ⟨claimed, hclaimed, h⟩ := bind_eq_ok.mp h
    obtain rfl := Except.ok.inj h
    exact hweaken (commandsEvolve_claim hclaimed)
  | heartbeat commandId credentials =>
    obtain ⟨row, hrow, h⟩ := bind_eq_ok.mp h
    have hfind := lockedCommand_eq_ok.mp hrow
    obtain ⟨state, hstate, h⟩ := bind_eq_ok.mp h
    obtain ⟨_, h⟩ := require_bind.mp h
    obtain rfl := Except.ok.inj h
    have hstep : CommandLifecycle.step svc.nfc row.state ⟨.heartbeat credentials, clock 0, []⟩ =
      .ok state := hstate
    exact commandsEvolve_setCommand rfl hfind hstep (.inl rfl)
  | commitPage runId request =>
    obtain ⟨committed, hcommitted, h⟩ := bind_eq_ok.mp h
    obtain rfl := Except.ok.inj h
    obtain ⟨_, _, _, _, _, hnext⟩ := executePageCommit_frame hcommitted
    exact commandsEvolve_of_commands (by rw [hnext])
  | attachSkip operation =>
    obtain ⟨attached, hattached, h⟩ := bind_eq_ok.mp h
    obtain rfl := Except.ok.inj h
    obtain ⟨_, _, _, _, _, hnext⟩ := attachSkipDecision_frame hattached
    exact commandsEvolve_of_commands (by rw [hnext])
  | complete commandId request =>
    obtain ⟨completed, hcompleted, h⟩ := bind_eq_ok.mp h
    obtain rfl := Except.ok.inj h
    exact hweaken (commandsEvolve_complete hcompleted)
  | recoverDue scopeVersion =>
    obtain ⟨recovered, hrecovered, h⟩ := bind_eq_ok.mp h
    obtain rfl := Except.ok.inj h
    obtain ⟨reconciled, hreconciled, hrecovered⟩ := bind_eq_ok.mp hrecovered
    obtain rfl := Except.ok.inj hrecovered
    exact hweaken (commandsEvolve_reconcileRows hreconciled (reconcilableRows_distinct db _)
      fun id hid row hrow => (reconcilableRows_status hid hrow).2)

/-- Any sequence of transactions drives a stored command through its lifecycle. -/
theorem commandsEvolve_run {reserved : UUID → Prop} (db : Database) (txs : List Transaction)
    (hreserved : ∀ tx ∈ txs, ∀ id, tx.operation.Reserves id → reserved id) :
    CommandsEvolve svc.nfc reserved db (run (step svc) db txs) := by
  induction txs generalizing db with
  | nil => exact commandsEvolve_of_commands rfl
  | cons tx txs ih =>
    refine commandsEvolve_trans ?_ (ih _ fun other hother => hreserved other (by simp [hother]))
    rcases attempt_cases (step svc) db tx with hsame | hstep
    · rw [hsame]
      exact commandsEvolve_of_commands rfl
    · intro id row hrow
      obtain ⟨calls, hfind, hcalls⟩ := commandsEvolve_step hstep id row hrow
      exact ⟨calls, hfind, hcalls.imp_right (hreserved tx (by simp) id)⟩

end Refinement

section Sample

def sampleSource : SourceRow where
  id := 3
  platform := .manifold
  scopeVersion := "scope-v1"
  enabled := true
  activeAuthorizationId := some 5

def sampleDecision : AuthorizationRow where
  id := 5
  sourceId := 3
  status := .approved
  permittedRoutes := some ["/questions"]
  effectiveAt := 0
  expiresAt := some (seconds 1000)
  revokedAt := none
  decidedAt := 0

def sampleDatabase : Database where
  sources := ⟨[sampleSource], List.nodup_singleton _⟩
  authorizations := ⟨[sampleDecision], List.nodup_singleton _⟩
  budgetRecords := Table.empty
  budgetDecisions := Table.empty
  commands := ⟨[⟨PageStreams.sampleCommand, 0, 0⟩], List.nodup_singleton _⟩
  checkpoints := ⟨[PageStreams.sampleCheckpoint], List.nodup_singleton _⟩
  runs := ⟨[(attemptStream 1).run], List.nodup_singleton _⟩
  commits := Table.empty
  observedItems := []
  posts := Table.empty
  sequences := Table.empty
  manifests := Table.empty
  completions := Table.empty
  skipObservations := Table.empty

/-- A service whose parser reads back the one completion response it writes. -/
def sampleService (response : CompletionResponse) : Service :=
  { PageStreams.sampleRuntime with
    parseCompletionResponse := fun bytes =>
      if bytes = canonicalBytes id (CompletionResponse.json response) then some response else none
    reviewedPageCap := 4
    reviewedPostCap := 20
    retryJitterKey := []
    flushesPolicyProof := true
    dumpSkipResponse := fun _ _ _ => []
    parseSkipResponse := fun _ => true }

end Sample

end PredictionMarketMonitor.ControlPlane
