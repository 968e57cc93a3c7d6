import PredictionMarketMonitor.CollectionBase
import PredictionMarketMonitor.PostArchive

set_option autoImplicit false

/-!
# Plans of the source activation phases

`services/release/source_activation_domain.py` and `source_activation_plans.py`:
what each phase checks about the state it was given, and what it decides to write.
-/
namespace PredictionMarketMonitor.ActivationPlans

open CanonicalJson CivilTime CollectionBase FallibleSteps Sha256

inductive ActivationTransition
  | prepared | bindingWriting | bindingCommitted | handshakePassed | anchorReserved
  | githubFinalized | active | deactivated | restoreWriting | restored | failed
deriving DecidableEq

instance : LawfulBEq (Option ActivationTransition) := inferInstance

def ActivationTransition.value : ActivationTransition → String
  | .prepared => "prepared"
  | .bindingWriting => "binding_writing"
  | .bindingCommitted => "binding_committed"
  | .handshakePassed => "handshake_passed"
  | .anchorReserved => "anchor_reserved"
  | .githubFinalized => "github_finalized"
  | .active => "active"
  | .deactivated => "deactivated"
  | .restoreWriting => "restore_writing"
  | .restored => "restored"
  | .failed => "failed"

/-- Why a phase stops: a code of `ActivationHoldError` or of another exception that
    `main` reports, a row that the database refuses, or an overflowing date. -/
inductive Hold
  | sourceNotInert | receiptProvenanceInvalid | reserveStateInvalid | preparationNotUsable
  | commitStateInvalid | reprepareStateInvalid | previousAttestationMismatch
  | attestationGenerationNotNext | activationNonceMismatch | activationEvidenceReused
  | activationEvidenceNotFresh | bindingRestoreRequired | restoreStateInvalid
  | phaseArgumentMissing | receiptSemanticsMismatch | activationBindingMismatch
  | handshakeNonceMismatch | cadenceAnchorMissing | reprepareReceiptBindingMismatch
  | restoreNonceMismatch | activationStateMissing | activationSourceRaced
  | receiptOversize | receiptNoncanonical | receiptInvalid | stateRowInvalid
  | anchorInvalid | typeError | overflow | integrity
deriving DecidableEq

/-- `ActivationState`. -/
structure ActivationState where
  activationNonce : UUID
  attestationGeneration : ℤ
  attestationSha256 : Text
  preparedAt : Instant
  state : ActivationTransition
  sourceEnabled : Bool
  activeAuthorizationId : Option UUID
  currentBudgetId : Option UUID
  currentBindingId : Option UUID
  currentCadenceId : Option UUID
  bindingWriteOccurred : Bool
  restoreVerified : Bool
deriving DecidableEq

structure ReserveInput where
  dbNow : Instant
  state : ActivationState
  predecessorSha256 : Text
  handshakeReceiptSha256 : Text

structure ReservePlan where
  dbNow : Instant
  activationNonce : UUID
  attestationGeneration : ℤ
  attestationSha256 : Text
  predecessorSha256 : Text
  handshakeReceiptSha256 : Text
  cadenceAnchorAt : Instant
  nextState : ActivationTransition

structure CommitInput where
  dbNow : Instant
  state : ActivationState
  cadenceAnchorAt : Datetime
  predecessorSha256 : Text
  attestationReceiptSha256 : Text
  handshakeReceiptSha256 : Text
  finalizeReceiptSha256 : Text
  journalPayloadSha256 : Text

inductive CommitReason
  | preparationNotUsable | activationCutoffReached
deriving DecidableEq

def CommitReason.value : CommitReason → String
  | .preparationNotUsable => "preparation_not_usable"
  | .activationCutoffReached => "activation_cutoff_reached"

structure CommitPlan where
  accepted : Bool
  dbNow : Instant
  activationNonce : UUID
  attestationGeneration : ℤ
  attestationSha256 : Text
  cadenceAnchorAt : Datetime
  effectiveAt : Option Instant
  expiresAt : Option Instant
  nextState : ActivationTransition
  reason : Option CommitReason

structure ReprepareInput where
  dbNow : Instant
  state : ActivationState
  requestedGeneration : ℤ
  previousAttestationSha256 : Text
  failedReservationSha256 : Text
  freshEvidenceSha256 : Text
  freshEvidencePreparedAt : Instant
  freshEvidenceActivationNonce : UUID

structure RepreparePlan where
  dbNow : Instant
  activationNonce : UUID
  previousGeneration : ℤ
  attestationGeneration : ℤ
  previousAttestationSha256 : Text
  failedReservationSha256 : Text
  attestationSha256 : Text
  nextState : ActivationTransition

def Inert (state : ActivationState) : Prop :=
  state.sourceEnabled = false ∧ state.activeAuthorizationId = none ∧
    state.currentBudgetId = none ∧ state.currentBindingId = none ∧ state.currentCadenceId = none

instance (state : ActivationState) : Decidable (Inert state) :=
  inferInstanceAs (Decidable (_ ∧ _))

def requireInert (state : ActivationState) : Except Hold Unit :=
  require (Inert state) .sourceNotInert

def IsSha256 (value : Text) : Prop := value.length = 64 ∧ value.all (· ∈ hexDigits) = true

instance (value : Text) : Decidable (IsSha256 value) := inferInstanceAs (Decidable (_ ∧ _))

def requireHashes (values : List Text) : Except Hold Unit :=
  require (∀ value ∈ values, IsSha256 value) .receiptProvenanceInvalid

/-- `_preparation_usable`: for two hours from the preparation on. -/
def PreparationUsable (preparedAt dbNow : Instant) : Prop :=
  preparedAt ≤ dbNow ∧ dbNow < preparedAt + hours 2

instance (preparedAt dbNow : Instant) : Decidable (PreparationUsable preparedAt dbNow) :=
  inferInstanceAs (Decidable (_ ∧ _))

/-- `value.replace(minute=0, second=0, microsecond=0)`. -/
def hourFloor (t : Instant) : Instant := t - t % hours 1

/-- `anchor + delta`; a date outside of the years 1 to 9999 overflows. -/
def shifted (anchor : Datetime) (delta : ℤ) : Except Hold Instant := do
  let reading := anchor.instant + seconds (anchor.utcoffset.getD 0) + delta
  require (seconds (-62135596800) ≤ reading ∧ reading < seconds 253402300800) .overflow
  return anchor.instant + delta

def planReserve (value : ReserveInput) : Except Hold ReservePlan := do
  requireInert value.state
  requireHashes [value.state.attestationSha256, value.predecessorSha256,
    value.handshakeReceiptSha256]
  let normal := value.state.state = .handshakePassed
  let sameGenerationRetry :=
    value.state.state = .failed ∧ value.state.bindingWriteOccurred = false
  require (normal ∨ sameGenerationRetry) .reserveStateInvalid
  require (PreparationUsable value.state.preparedAt value.dbNow) .preparationNotUsable
  return {
    dbNow := value.dbNow
    activationNonce := value.state.activationNonce
    attestationGeneration := value.state.attestationGeneration
    attestationSha256 := value.state.attestationSha256
    predecessorSha256 := value.predecessorSha256
    handshakeReceiptSha256 := value.handshakeReceiptSha256
    cadenceAnchorAt := hourFloor value.dbNow + hours 3
    nextState := .anchorReserved }

def failedCommit (value : CommitInput) (reason : CommitReason) : CommitPlan where
  accepted := false
  dbNow := value.dbNow
  activationNonce := value.state.activationNonce
  attestationGeneration := value.state.attestationGeneration
  attestationSha256 := value.state.attestationSha256
  cadenceAnchorAt := value.cadenceAnchorAt
  effectiveAt := none
  expiresAt := none
  nextState := .failed
  reason := some reason

def planCommit (value : CommitInput) : Except Hold CommitPlan := do
  requireInert value.state
  requireHashes [value.state.attestationSha256, value.predecessorSha256,
    value.attestationReceiptSha256, value.handshakeReceiptSha256, value.finalizeReceiptSha256,
    value.journalPayloadSha256]
  require (value.state.state = .githubFinalized) .commitStateInvalid
  let cutoff ← shifted value.cadenceAnchorAt (-hours 1)
  -- an aware clock value is not compared with a naive one
  require value.cadenceAnchorAt.Aware .typeError
  if ¬PreparationUsable value.state.preparedAt value.dbNow then
    return failedCommit value .preparationNotUsable
  else if ¬value.dbNow < cutoff then
    return failedCommit value .activationCutoffReached
  else do
    let expiresAt ← shifted value.cadenceAnchorAt (days 31)
    return {
      accepted := true
      dbNow := value.dbNow
      activationNonce := value.state.activationNonce
      attestationGeneration := value.state.attestationGeneration
      attestationSha256 := value.state.attestationSha256
      cadenceAnchorAt := value.cadenceAnchorAt
      effectiveAt := some value.dbNow
      expiresAt := some expiresAt
      nextState := .active
      reason := none }

def planReprepare (value : ReprepareInput) : Except Hold RepreparePlan := do
  requireInert value.state
  requireHashes [value.state.attestationSha256, value.previousAttestationSha256,
    value.failedReservationSha256, value.freshEvidenceSha256]
  require (value.state.state = .failed ∨ value.state.state = .restoreWriting) .reprepareStateInvalid
  require (value.previousAttestationSha256 = value.state.attestationSha256)
    .previousAttestationMismatch
  require (value.requestedGeneration = value.state.attestationGeneration + 1)
    .attestationGenerationNotNext
  require (value.freshEvidenceActivationNonce = value.state.activationNonce)
    .activationNonceMismatch
  require (value.freshEvidenceSha256 ≠ value.state.attestationSha256) .activationEvidenceReused
  require (PreparationUsable value.freshEvidencePreparedAt value.dbNow) .activationEvidenceNotFresh
  require (value.state.bindingWriteOccurred = false ∨ value.state.restoreVerified = true)
    .bindingRestoreRequired
  return {
    dbNow := value.dbNow
    activationNonce := value.state.activationNonce
    previousGeneration := value.state.attestationGeneration
    attestationGeneration := value.requestedGeneration
    previousAttestationSha256 := value.previousAttestationSha256
    failedReservationSha256 := value.failedReservationSha256
    attestationSha256 := value.freshEvidenceSha256
    nextState := .prepared }

def planRestore (currentState : ActivationTransition) :
    Except Hold (ActivationTransition × ActivationTransition) := do
  require (currentState = .failed) .restoreStateInvalid
  return (.deactivated, .restoreWriting)

end PredictionMarketMonitor.ActivationPlans
