import PredictionMarketMonitor.ControlPlaneTables

set_option autoImplicit false

/-!
# Reservation, claim and heartbeat transactions

`command_store.py`, `claim_policy_store.py`, `retry_source_store.py` and the
heartbeat of `repository.py`.
-/
namespace PredictionMarketMonitor.CommandStore

open CanonicalJson CivilTime ClaimPolicy CollectionBase CollectionModels ControlPlaneTables Dispatch
open FallibleSteps KeyedTable PageCommit Sha256

def reserveCommand (db : Database) (commandId : UUID) (reservation : DispatchReservation)
    (now : Instant) : Result Database := do
  let row ← db.lockedCommand commandId
  let state ← reserveDispatch row.state reservation now
  return db.setCommand state

def confirmCommand (db : Database) (commandId : UUID) (confirmation : DispatchConfirmation)
    (now : Instant) : Result Database := do
  let row ← db.lockedCommand commandId
  let state ← confirmDispatch row.state confirmation now
  return db.setCommand state

section Policies
variable (svc : Service)

def authorizationSnapshot (source : SourceRow) (decision : AuthorizationRow) (enabled : Bool) :
    AuthorizationSnapshot where
  decisionId := decision.id
  sourceId := source.id
  scopeVersion := source.scopeVersion
  enabled := enabled
  status := decision.status
  effectiveAt := decision.effectiveAt
  expiresAt := decision.expiresAt
  revokedAt := decision.revokedAt

/-- `source.enabled and source.active_authorization_id == decision.id`. -/
def currentlyEnabled (source : SourceRow) (decision : AuthorizationRow) : Bool :=
  source.enabled && decide (source.activeAuthorizationId = some decision.id)

/-- Each requested source of the scope joined with its active decision. -/
def claimAuthorizationRows (db : Database) (sourceIds : List UUID) (scopeVersion : String) :
    List (SourceRow × AuthorizationRow) :=
  let sources := db.sources.rows.filter (fun s => s.id ∈ sourceIds ∧ s.scopeVersion = scopeVersion)
  (sources.insertionSort (fun a b => UUID.HexLE a.id b.id)).filterMap (fun source =>
    (source.activeAuthorizationId.bind db.authorizations.find?).map (fun decision =>
      (source, decision)))

def claimAuthorization (source : SourceRow) (decision : AuthorizationRow) (now : Instant) :
    Result ClaimAuthorization := do
  let _ ← requireActiveAuthorization
    (authorizationSnapshot source decision (currentlyEnabled source decision)) source.id
    source.scopeVersion now
  let routes ← present decision.permittedRoutes (fail .sourceAuthorizationInactive 403)
  return ⟨decision.id, routes⟩

def currentBudgetRecord (db : Database) (source : SourceRow) (now : Instant) :
    Result BudgetRecordRow :=
  let candidates := db.budgetRecords.rows.filter (fun r => r.provider = source.platform ∧
    r.billingPeriodStart ≤ now ∧ now < r.billingPeriodEnd)
  present (candidates.insertionSort (fun a b => b.verifiedAt ≤ a.verifiedAt)).head?
    (fail .invalidContract 409)

def claimSourcePolicy (db : Database) (now : Instant) (ids : FreshIds)
    (row : SourceRow × AuthorizationRow) : Result (ClaimSourcePolicy × BudgetDecisionRow) := do
  let authorization ← claimAuthorization row.1 row.2 now
  let record ← currentBudgetRecord db row.1 now
  let decision ← deriveClaimBudget record.facts svc.reviewedPageCap svc.reviewedPostCap
  let decisionId := ids.budgetDecision row.1.id
  return (
    { sourceId := row.1.id
      authorization := authorization
      budgetDecisionId := decisionId
      budgetStatus := decision.status
      reviewedPageCap := decision.reviewedPageCap
      reviewedPostCap := decision.reviewedPostCap
      skipBudgetDecisionId := if decision.skipCollection then some decisionId else none },
    { id := decisionId
      budgetRecordId := record.id
      sourceId := some row.1.id
      status := decision.status
      reviewedPageCap := decision.reviewedPageCap
      reviewedPostCap := decision.reviewedPostCap })

def addBudgetDecisions (db : Database) : List BudgetDecisionRow → Result Database
  | [] => .ok db
  | row :: rest => do
    let budgetDecisions ← present (db.budgetDecisions.insert? row) .integrity
    addBudgetDecisions { db with budgetDecisions := budgetDecisions } rest

def claimSourcePolicies (db : Database) (sourceIds : List UUID) (scopeVersion : String)
    (now : Instant) (ids : FreshIds) : Result (Database × List ClaimSourcePolicy) := do
  let rows := claimAuthorizationRows db sourceIds scopeVersion
  require (rows.length = sourceIds.length ∧ sourceIds.Nodup)
    (fail .sourceAuthorizationInactive 403)
  let derived ← rows.mapM (claimSourcePolicy svc db now ids)
  let db ← addBudgetDecisions db (derived.map Prod.snd)
  return (db, derived.map Prod.fst)

end Policies

section Claim
variable (nfc : Text → Text)

def collectionSourceSetHash (sourceIds : List UUID) : Digest :=
  canonicalJsonHash nfc (.list ((sourceIds.insertionSort UUID.HexLE).map (fun id => .str id.hex)))

def latestStatus (db : Database) (commandId sourceId : UUID) : Option RunStatus :=
  let history := db.runs.rows.filter (fun r => r.commandId = commandId ∧ r.sourceId = sourceId)
  ((history.insertionSort (fun a b => b.attempt ≤ a.attempt)).head?).map (·.status)

def retryEligible : Option RunStatus → Result Bool
  | none | some .failedRetryable | some .staleAbandoned => .ok true
  | some .succeeded | some .failedTerminal | some .skippedPolicy | some .skippedQuota => .ok false
  | some .created | some .running => .error (fail .invalidTransition 409)

def eligibleRetrySources (db : Database) (commandId : UUID) : List UUID → Result (List UUID)
  | [] => .ok []
  | sourceId :: rest => do
    let eligible ← retryEligible (latestStatus db commandId sourceId)
    let tail ← eligibleRetrySources db commandId rest
    return if eligible then sourceId :: tail else tail

/-- The checkpoint of a source and scope, created at revision 0 when missing. -/
def claimCheckpoint (db : Database) (sourceId : UUID) (scopeVersion : String) (ids : FreshIds) :
    Result (Database × CheckpointState) :=
  match db.checkpoints.find? (sourceId, scopeVersion) with
  | some checkpoint => .ok (db, checkpoint)
  | none => do
    let checkpoint : CheckpointState := {
      id := ids.checkpoint sourceId, sourceId := sourceId, scopeVersion := scopeVersion
      revision := 0, cursor := none }
    let checkpoints ← present (db.checkpoints.insert? checkpoint) .integrity
    return ({ db with checkpoints := checkpoints }, checkpoint)

def RunAdmitted (db : Database) (run : RunState) (now : Instant) : Prop :=
  db.SourceRunnable run.sourceId now ∧
    (∀ r ∈ db.runs.rows, ¬(r.commandId = run.commandId ∧ r.sourceId = run.sourceId ∧
      r.attempt = run.attempt)) ∧
    ∀ r ∈ db.runs.rows, r.status = .created ∨ r.status = .running →
      ¬(r.sourceId = run.sourceId ∧ r.scopeVersion = run.scopeVersion)

instance (db : Database) (run : RunState) (now : Instant) : Decidable (RunAdmitted db run now) :=
  inferInstanceAs (Decidable (_ ∧ _))

def addRun (db : Database) (run : RunState) (now : Instant) : Result Database := do
  require (RunAdmitted db run now) .integrity
  let runs ← present (db.runs.insert? run) .integrity
  return { db with runs := runs }

def runStart (state : CommandState) (lease : Digest) (now : Instant) (ids : FreshIds)
    (sourceId : UUID) : RunStart where
  runId := ids.run sourceId
  commandId := state.id
  sourceId := sourceId
  scopeVersion := state.scopeVersion
  attempt := state.attempt
  leaseIdentityHash := lease
  startedAt := Datetime.utc now

def claimRun (db : Database) (state : CommandState) (lease : Digest) (now statementNow : Instant)
    (policies : List ClaimSourcePolicy) (ids : FreshIds) (sourceId : UUID) :
    Result (Database × RunState) := do
  let located ← claimCheckpoint db sourceId state.scopeVersion ids
  let policy ← present (policies.find? (fun p => p.sourceId = sourceId))
    (fail .sourceAuthorizationInactive 403)
  let started ← startRun nfc (runStart state lease now ids sourceId) located.2
  let run := bindPolicy started policy
  let db ← addRun located.1 run statementNow
  return (db, run)

def claimEach (state : CommandState) (lease : Digest) (now statementNow : Instant)
    (policies : List ClaimSourcePolicy) (ids : FreshIds) :
    Database → List UUID → Result (Database × List RunState)
  | db, [] => .ok (db, [])
  | db, sourceId :: rest => do
    let claimed ← claimRun nfc db state lease now statementNow policies ids sourceId
    let others ← claimEach state lease now statementNow policies ids claimed.1 rest
    return (others.1, claimed.2 :: others.2)

structure ClaimResult where
  command : CommandState
  runs : List RunState

def bySource (runs : List RunState) : List RunState :=
  runs.insertionSort (fun a b => UUID.HexLE a.sourceId b.sourceId)

/-- Claim one command and create only its eligible source-attempt runs. -/
def claimRuns (db : Database) (commandId : UUID) (credentials : ClaimCredentials)
    (sourceIds : List UUID) (policies : List ClaimSourcePolicy) (now statementNow : Instant)
    (ids : FreshIds) : Result (Database × ClaimResult) := do
  let row ← db.lockedCommand commandId
  require (row.sourceSetHash = collectionSourceSetHash nfc sourceIds) (fail .runSetMismatch 409)
  let command ← claimCommand row.state credentials now
  let current := bySource (db.runsOf commandId row.state.attempt)
  if current ≠ [] then
    return (db.setCommand command, ⟨command, current⟩)
  let lease ← present row.state.leaseHash (fail .leaseOrAttemptMismatch 409)
  let eligible ← eligibleRetrySources db commandId sourceIds
  let claimed ← claimEach nfc row.state lease now statementNow policies ids db eligible
  require (claimed.2 ≠ []) (fail .runSetMismatch 409)
  return (claimed.1.setCommand command, ⟨command, claimed.2⟩)

end Claim

/-- `claim` of the repository: decisions first, then the runs. -/
def claim (svc : Service) (db : Database) (commandId : UUID) (credentials : ClaimCredentials)
    (sourceIds : List UUID) (clock : ℕ → Instant) (ids : FreshIds) :
    Result (Database × ClaimResult) := do
  let row ← db.lockedCommand commandId
  let decided ← claimSourcePolicies svc db sourceIds row.state.scopeVersion (clock 0) ids
  claimRuns svc.nfc decided.1 commandId credentials sourceIds decided.2 (clock 1) (clock 2) ids

def beatRuns (db : Database) (commandId : UUID) (attempt : ℕ) (heartbeatAt : Instant) : Database :=
  { db with
    runs := db.runs.modify (fun r =>
      if r.commandId = commandId ∧ r.attempt = attempt then { r with heartbeatAt := heartbeatAt }
      else r) (by intro r; split <;> rfl) }

/-- Advance command and run heartbeats; every running row passes the trigger again. -/
def heartbeat (db : Database) (commandId : UUID) (credentials : ClaimCredentials)
    (now statementNow : Instant) : Result Database := do
  let row ← db.lockedCommand commandId
  let state ← heartbeatCommand row.state credentials now
  require (∀ r ∈ db.runsOf commandId row.state.attempt, r.status = .running →
    db.SourceRunnable r.sourceId statementNow) .integrity
  return (beatRuns db commandId row.state.attempt now).setCommand state

end PredictionMarketMonitor.CommandStore
