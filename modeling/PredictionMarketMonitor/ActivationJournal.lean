import PredictionMarketMonitor.ActivationReceipts
import PredictionMarketMonitor.KeyedTable
import PredictionMarketMonitor.RankedChain
import PredictionMarketMonitor.VerificationSnapshots

set_option autoImplicit false

/-!
# The tables of the source activation and their writers

`scripts/activation_schema.py`, `services/release/source_activation.py` with its SQL,
`source_activation_state.py` and the journal of `scripts/source_bindings_db.py`. Both
writers hold the lock of `production-collector-binding` while they read and append.
-/
namespace PredictionMarketMonitor.ActivationJournal

open ActivationPlans ActivationReceipts CanonicalJson CivilTime CollectionBase FallibleSteps
open KeyedTable RankedChain Sha256

/-- `NAMESPACE` of the commands and `REPOSITORY_UUID_NAMESPACE` of the journal. -/
def repositoryNamespace : UUID := BitVec.ofNat 128 0xcd932162ffd45bb4b027cbdb38a789d3

def manifoldSourceId : UUID := BitVec.ofNat 128 0x0890756aca235697ae4c0de527361064

/-- The Manifold row of `community_sources`. -/
structure CommunitySource where
  enabled : Bool
  activeAuthorizationId : Option UUID
  currentBudgetId : Option UUID
  currentBindingId : Option UUID
  currentCadenceId : Option UUID
deriving DecidableEq

structure SourceActivationAttestation where
  id : UUID
  sourceId : UUID
  activationNonce : UUID
  attestationGeneration : ℤ
  attestationSha256 : Digest
  predecessorAttestationSha256 : Option Digest
  preparedAt : Instant
deriving DecidableEq

structure SourceBindingChangeIntent where
  id : UUID
  activationNonce : UUID
  sourceId : UUID
  attestationId : UUID
  payloadSha256 : Digest
  prestateSha256 : Digest
  scopeVersion : Text
deriving DecidableEq

structure SourceCadenceEpoch where
  id : UUID
  activationNonce : UUID
  sourceId : UUID
  cadenceAnchorAt : Instant
  expiresAt : Instant
  recheckAt : Instant
deriving DecidableEq

/-- An approved decision; none of the writers here revokes one. -/
structure SourceAuthorizationDecision where
  id : UUID
  sourceId : UUID
  evidenceSha256 : Digest
  effectiveAt : Instant
  expiresAt : Instant
deriving DecidableEq

structure ProviderBudgetRecord where
  id : UUID
  provider : Text
  billingPeriodStart : Instant
  billingPeriodEnd : Instant
  evidenceSha256 : Digest
deriving DecidableEq

structure SourceActivationStateTransition where
  id : UUID
  activationNonce : UUID
  sourceId : UUID
  attestationId : Option UUID
  bindingIntentId : Option UUID
  predecessorTransitionId : Option UUID
  state : ActivationTransition
  currentAuthorizationId : Option UUID := none
  currentBudgetId : Option UUID := none
  currentBindingId : Option UUID := none
  currentCadenceId : Option UUID := none
  receiptSha256 : Digest
  transitionAtDb : Instant
deriving DecidableEq

structure ActivationDatabase where
  source : CommunitySource
  attestations : Table SourceActivationAttestation.id
  intents : Table SourceBindingChangeIntent.id
  epochs : Table SourceCadenceEpoch.id
  authorizations : Table SourceAuthorizationDecision.id
  budgets : Table ProviderBudgetRecord.id
  transitions : Table SourceActivationStateTransition.id

section Writes
variable (db : ActivationDatabase)

structure RefersOk (row : SourceActivationStateTransition) : Prop where
  attestation : ∀ id ∈ row.attestationId, (db.attestations.find? id).isSome
  intent : ∀ id ∈ row.bindingIntentId, (db.intents.find? id).isSome
  predecessor : ∀ id ∈ row.predecessorTransitionId, (db.transitions.find? id).isSome
  authorization : ∀ id ∈ row.currentAuthorizationId, (db.authorizations.find? id).isSome
  budget : ∀ id ∈ row.currentBudgetId, (db.budgets.find? id).isSome
  binding : ∀ id ∈ row.currentBindingId, (db.intents.find? id).isSome
  cadence : ∀ id ∈ row.currentCadenceId, (db.epochs.find? id).isSome

instance (row : SourceActivationStateTransition) : Decidable (RefersOk db row) :=
  decidable_of_iff
    ((∀ id ∈ row.attestationId, (db.attestations.find? id).isSome) ∧
      (∀ id ∈ row.bindingIntentId, (db.intents.find? id).isSome) ∧
      (∀ id ∈ row.predecessorTransitionId, (db.transitions.find? id).isSome) ∧
      (∀ id ∈ row.currentAuthorizationId, (db.authorizations.find? id).isSome) ∧
      (∀ id ∈ row.currentBudgetId, (db.budgets.find? id).isSome) ∧
      (∀ id ∈ row.currentBindingId, (db.intents.find? id).isSome) ∧
      (∀ id ∈ row.currentCadenceId, (db.epochs.find? id).isSome))
    ⟨fun h => ⟨h.1, h.2.1, h.2.2.1, h.2.2.2.1, h.2.2.2.2.1, h.2.2.2.2.2.1, h.2.2.2.2.2.2⟩,
      fun h => ⟨h.1, h.2, h.3, h.4, h.5, h.6, h.7⟩⟩

/-- A row whose receipt the activation has already recorded is not inserted again. -/
def insertOnce (row : SourceActivationStateTransition) : Except Hold ActivationDatabase := do
  if ∃ other ∈ db.transitions.rows, other.activationNonce = row.activationNonce ∧
      other.receiptSha256 = row.receiptSha256 then
    return db
  else do
    require (RefersOk db row) .integrity
    let transitions ← present (db.transitions.insert? row) .integrity
    return { db with transitions := transitions }

/-- `WHERE prior.id = :predecessor_id AND NOT EXISTS (newer)`. -/
def Extendable (predecessor : Option UUID) : Prop :=
  (∃ prior ∈ db.transitions.rows, some prior.id = predecessor) ∧
    ∀ newer ∈ db.transitions.rows, newer.predecessorTransitionId ≠ predecessor

instance (predecessor : Option UUID) : Decidable (Extendable db predecessor) :=
  inferInstanceAs (Decidable (_ ∧ _))

/-- `INSERT_TRANSITION` and `INSERT_DEACTIVATED`: a predecessor that is missing or has
    a successor selects no row. -/
def insertTransition (row : SourceActivationStateTransition) :
    Except Hold ActivationDatabase :=
  if Extendable db row.predecessorTransitionId then insertOnce db row else .ok db

end Writes

structure TransitionIdentity where
  activationNonce : UUID
  attestationId : UUID
  bindingIntentId : UUID
  predecessorTransitionId : UUID
  receiptSha256 : Digest
  transitionId : UUID

structure ReserveWrite where
  identity : TransitionIdentity
  dbNow : Instant
  cadenceId : UUID
  cadenceAnchorAt : Instant
  expiresAt : Instant
  recheckAt : Instant

structure CommitWrite where
  identity : TransitionIdentity
  dbNow : Instant
  /-- The clock when `ACTIVATE_SOURCE` runs. -/
  statementAt : Instant
  cadenceId : UUID
  authorizationId : UUID
  budgetId : UUID
  authorizationEvidenceSha256 : Digest
  budgetEvidenceSha256 : Digest
  effectiveAt : Instant
  expiresAt : Instant
  accepted : Bool

structure ReprepareWrite where
  identity : TransitionIdentity
  dbNow : Instant
  attestationId : UUID
  generation : ℤ
  attestationSha256 : Digest
  preparedAt : Instant
  payloadSha256 : Digest

structure RestoreWrite where
  identity : TransitionIdentity
  dbNow : Instant
  deactivatedId : UUID
  deactivatedReceiptSha256 : Digest

def TransitionIdentity.row (identity : TransitionIdentity) (state : ActivationTransition)
    (dbNow : Instant) : SourceActivationStateTransition where
  id := identity.transitionId
  activationNonce := identity.activationNonce
  sourceId := manifoldSourceId
  attestationId := some identity.attestationId
  bindingIntentId := some identity.bindingIntentId
  predecessorTransitionId := some identity.predecessorTransitionId
  state := state
  receiptSha256 := identity.receiptSha256
  transitionAtDb := dbNow

section Persist
variable (db : ActivationDatabase)

/-- `INSERT_CADENCE`: one epoch for a source, an activation and an anchor. -/
def insertCadence (row : SourceCadenceEpoch) : Except Hold ActivationDatabase := do
  if ∃ other ∈ db.epochs.rows, other.sourceId = row.sourceId ∧
      other.activationNonce = row.activationNonce ∧
      other.cadenceAnchorAt = row.cadenceAnchorAt then
    return db
  else do
    let epochs ← present (db.epochs.insert? row) .integrity
    return { db with epochs := epochs }

def persistReserve (value : ReserveWrite) : Except Hold ActivationDatabase := do
  let db ← insertCadence db {
    id := value.cadenceId
    activationNonce := value.identity.activationNonce
    sourceId := manifoldSourceId
    cadenceAnchorAt := value.cadenceAnchorAt
    expiresAt := value.expiresAt
    recheckAt := value.recheckAt }
  insertTransition db
    { value.identity.row .anchorReserved value.dbNow with
      currentCadenceId := some value.cadenceId }

/-- `INSERT_AUTHORIZATION`, with the constraint `approved_window_valid`. -/
def insertAuthorization (row : SourceAuthorizationDecision) :
    Except Hold ActivationDatabase := do
  require (row.effectiveAt < row.expiresAt) .integrity
  if ∃ other ∈ db.authorizations.rows, other.sourceId = row.sourceId ∧
      other.evidenceSha256 = row.evidenceSha256 ∧ other.effectiveAt = row.effectiveAt then
    return db
  else do
    let authorizations ← present (db.authorizations.insert? row) .integrity
    return { db with authorizations := authorizations }

/-- `INSERT_BUDGET`, with the constraint `budget_period_valid`. -/
def insertBudget (row : ProviderBudgetRecord) : Except Hold ActivationDatabase := do
  require (row.billingPeriodStart < row.billingPeriodEnd) .integrity
  if ∃ other ∈ db.budgets.rows, other.provider = row.provider ∧
      other.billingPeriodStart = row.billingPeriodStart then
    return db
  else do
    let budgets ← present (db.budgets.insert? row) .integrity
    return { db with budgets := budgets }

/-- The pointers that `ACTIVATE_SOURCE` sets. -/
def CommitWrite.activated (value : CommitWrite) : CommunitySource where
  enabled := true
  activeAuthorizationId := some value.authorizationId
  currentBudgetId := some value.budgetId
  currentBindingId := some value.identity.bindingIntentId
  currentCadenceId := some value.cadenceId

def unlinked : CommunitySource := ⟨false, none, none, none, none⟩

/-- `monitor_require_active_source_authorization` and the foreign keys of the source. -/
structure Activatable (value : CommitWrite) : Prop where
  authorization : ∃ decision ∈ db.authorizations.rows, decision.id = value.authorizationId ∧
    decision.sourceId = manifoldSourceId ∧ decision.effectiveAt ≤ value.statementAt ∧
    value.statementAt < decision.expiresAt
  budget : (db.budgets.find? value.budgetId).isSome
  binding : (db.intents.find? value.identity.bindingIntentId).isSome
  cadence : (db.epochs.find? value.cadenceId).isSome

instance (value : CommitWrite) : Decidable (Activatable db value) :=
  decidable_of_iff
    ((∃ decision ∈ db.authorizations.rows, decision.id = value.authorizationId ∧
        decision.sourceId = manifoldSourceId ∧ decision.effectiveAt ≤ value.statementAt ∧
        value.statementAt < decision.expiresAt) ∧
      (db.budgets.find? value.budgetId).isSome ∧
      (db.intents.find? value.identity.bindingIntentId).isSome ∧
      (db.epochs.find? value.cadenceId).isSome)
    ⟨fun h => ⟨h.1, h.2.1, h.2.2.1, h.2.2.2⟩, fun h => ⟨h.1, h.2, h.3, h.4⟩⟩

/-- `ACTIVATE_SOURCE` and the check of its row count. -/
def activateSource (value : CommitWrite) : Except Hold ActivationDatabase := do
  require (db.source = unlinked ∨ db.source = value.activated) .activationSourceRaced
  require (Activatable db value) .integrity
  return { db with source := value.activated }

def persistCommit (value : CommitWrite) : Except Hold ActivationDatabase :=
  if value.accepted = false then
    insertTransition db (value.identity.row .failed value.dbNow)
  else do
    let db ← insertAuthorization db {
      id := value.authorizationId
      sourceId := manifoldSourceId
      evidenceSha256 := value.authorizationEvidenceSha256
      effectiveAt := value.effectiveAt
      expiresAt := value.expiresAt }
    let db ← insertBudget db {
      id := value.budgetId
      provider := "manifold".toList
      billingPeriodStart := value.effectiveAt
      billingPeriodEnd := value.expiresAt
      evidenceSha256 := value.budgetEvidenceSha256 }
    let db ← activateSource db value
    insertTransition db
      { value.identity.row .active value.dbNow with
        currentAuthorizationId := some value.authorizationId
        currentBudgetId := some value.budgetId
        currentBindingId := some value.identity.bindingIntentId
        currentCadenceId := some value.cadenceId }

/-- `INSERT_ATTESTATION`: one attestation for a generation, behind the prior one. -/
def insertAttestation (value : ReprepareWrite) : Except Hold ActivationDatabase := do
  match db.attestations.find? value.identity.attestationId with
  | none => return db
  | some prior =>
    if ∃ other ∈ db.attestations.rows,
        other.activationNonce = value.identity.activationNonce ∧
        other.attestationGeneration = value.generation then
      return db
    else do
      let attestations ← present (db.attestations.insert? {
        id := value.attestationId
        sourceId := manifoldSourceId
        activationNonce := value.identity.activationNonce
        attestationGeneration := value.generation
        attestationSha256 := value.attestationSha256
        predecessorAttestationSha256 := some prior.attestationSha256
        preparedAt := value.preparedAt }) .integrity
      return { db with attestations := attestations }

/-- The intent that `ROTATE_INTENT` updates. -/
def Rotated (value : ReprepareWrite) (intent : SourceBindingChangeIntent) : Prop :=
  intent.id = value.identity.bindingIntentId ∧
    intent.activationNonce = value.identity.activationNonce ∧
    intent.attestationId = value.identity.attestationId

instance (value : ReprepareWrite) (intent : SourceBindingChangeIntent) :
    Decidable (Rotated value intent) := inferInstanceAs (Decidable (_ ∧ _))

def rotateIntents (value : ReprepareWrite) (intents : Table SourceBindingChangeIntent.id) :
    Table SourceBindingChangeIntent.id :=
  intents.modify (fun intent =>
    if Rotated value intent then
      { intent with
        attestationId := value.attestationId
        payloadSha256 := value.payloadSha256 }
    else intent) (by
      intro intent
      split <;> rfl)

/-- `ROTATE_INTENT`, with the foreign key of a rotated intent. -/
def rotateIntent (value : ReprepareWrite) : Except Hold ActivationDatabase := do
  require ((∃ intent ∈ db.intents.rows, Rotated value intent) →
    (db.attestations.find? value.attestationId).isSome) .integrity
  return { db with intents := rotateIntents value db.intents }

def persistReprepare (value : ReprepareWrite) : Except Hold ActivationDatabase := do
  let db ← insertAttestation db value
  let db ← rotateIntent db value
  insertTransition db
    { value.identity.row .prepared value.dbNow with attestationId := some value.attestationId }

def RestoreWrite.deactivated (value : RestoreWrite) : SourceActivationStateTransition :=
  { value.identity.row .deactivated value.dbNow with
    id := value.deactivatedId
    receiptSha256 := value.deactivatedReceiptSha256 }

def RestoreWrite.restoreWriting (value : RestoreWrite) : SourceActivationStateTransition :=
  { value.identity.row .restoreWriting value.dbNow with
    predecessorTransitionId := some value.deactivatedId }

def persistRestore (value : RestoreWrite) : Except Hold ActivationDatabase := do
  let db := { db with source := unlinked }
  let db ← insertTransition db value.deactivated
  insertTransition db value.restoreWriting

end Persist

section Readers
variable (db : ActivationDatabase)

/-- `transition_at_db, id`. -/
def rank (row : SourceActivationStateTransition) : ℤ ×ₗ ℕ :=
  toLex (row.transitionAtDb, row.id.toNat)

def transitionsOf (nonce : UUID) : List SourceActivationStateTransition :=
  db.transitions.rows.filter (fun row => row.activationNonce = nonce)

def latestTransition (nonce : UUID) : Option SourceActivationStateTransition :=
  latest rank (transitionsOf db nonce)

def latestState (nonce : UUID) : Option ActivationTransition :=
  (latestTransition db nonce).map SourceActivationStateTransition.state

/-- The row that `CURRENT_STATE` selects, among all activations of the source. -/
def currentTransition : Option SourceActivationStateTransition :=
  latest rank (db.transitions.rows.filter (fun row => row.sourceId = manifoldSourceId ∧
    ∃ attestation ∈ db.attestations.rows, row.attestationId = some attestation.id))

structure LockedActivationState where
  state : ActivationState
  transitionId : UUID
  attestationId : UUID
  bindingIntentId : UUID
  bindingPayloadSha256 : Digest
  cadenceId : Option UUID

def BindingWritten (nonce attestationId : UUID) : Prop :=
  ∃ written ∈ db.transitions.rows, written.activationNonce = nonce ∧
    written.attestationId = some attestationId ∧
    written.state ∈ [.bindingWriting, .bindingCommitted, .githubFinalized, .active]

instance (nonce attestationId : UUID) : Decidable (BindingWritten db nonce attestationId) :=
  inferInstanceAs (Decidable (∃ _ ∈ _, _))

/-- `load_current_state`; a row without an intent does not validate. -/
def loadCurrentState : Except Hold LockedActivationState := do
  let row ← present (currentTransition db) .activationStateMissing
  let attestationId ← present row.attestationId .stateRowInvalid
  let attestation ← present (db.attestations.find? attestationId) .stateRowInvalid
  let bindingIntentId ← present row.bindingIntentId .stateRowInvalid
  let intent ← present (db.intents.find? bindingIntentId) .stateRowInvalid
  return {
    state := {
      activationNonce := row.activationNonce
      attestationGeneration := attestation.attestationGeneration
      attestationSha256 := attestation.attestationSha256.hexdigest
      preparedAt := attestation.preparedAt
      state := row.state
      sourceEnabled := db.source.enabled
      activeAuthorizationId := db.source.activeAuthorizationId
      currentBudgetId := db.source.currentBudgetId
      currentBindingId := db.source.currentBindingId
      currentCadenceId := db.source.currentCadenceId
      bindingWriteOccurred := BindingWritten db row.activationNonce attestationId
      restoreVerified := row.state = .restoreWriting }
    transitionId := row.id
    attestationId := attestationId
    bindingIntentId := bindingIntentId
    bindingPayloadSha256 := intent.payloadSha256
    cadenceId := row.currentCadenceId }

end Readers

section Journal
variable (db : ActivationDatabase)

def transitionReceipt (nonce intentId : UUID) (latest : Option UUID)
    (state : ActivationTransition) : Digest :=
  hashDocument (.object [
    ("activation_nonce", UUID.json nonce),
    ("binding_intent_id", UUID.json intentId),
    ("predecessor_transition_id", .ofOption UUID.json latest),
    ("state", .ofString state.value)])

/-- The row that `append_transition` writes; its transaction starts at `startedAt`. -/
def appendedRow (nonce intentId attestationId : UUID) (latest : Option UUID)
    (state : ActivationTransition) (startedAt : Instant) : SourceActivationStateTransition where
  id := uuid5 repositoryNamespace ("transition:".toList ++ nonce.str ++ ':' ::
    state.value.toList ++ ':' :: (transitionReceipt nonce intentId latest state).hexdigest)
  activationNonce := nonce
  sourceId := manifoldSourceId
  attestationId := some attestationId
  bindingIntentId := some intentId
  predecessorTransitionId := latest
  state := state
  receiptSha256 := transitionReceipt nonce intentId latest state
  transitionAtDb := startedAt

/-- `append_transition`: nothing looks at the successors of the predecessor. -/
def appendTransition (nonce intentId attestationId : UUID) (state : ActivationTransition)
    (startedAt : Instant) : Except Hold ActivationDatabase :=
  insertOnce db (appendedRow nonce intentId attestationId
    ((latestTransition db nonce).map SourceActivationStateTransition.id) state startedAt)

end Journal

end PredictionMarketMonitor.ActivationJournal
