import PredictionMarketMonitor.ActivationJournal

set_option autoImplicit false

/-!
# The commands of the source activation

`services/release/source_activation_commands.py`, `source_activation_recovery.py` and
`source_activation_cli.py` with the phases of an activation, and
`scripts/source_bindings_mutations.py` with the commands that write a binding.
-/
namespace PredictionMarketMonitor.ActivationCommands

open ActivationJournal ActivationPlans ActivationReceipts CanonicalJson CivilTime CollectionBase
open FallibleSteps KeyedTable RankedChain Sha256

structure PublicActivationAttestation where
  reviewedSha : Text
  activationNonce : UUID
  attestationGeneration : ℤ
  authorizationEvidenceSha256 : Digest
  freeTierEvidenceSha256 : Digest
  capturedAt : Instant

structure ActivationEvidenceReceipt where
  activationNonce : UUID
  attestationGeneration : ℤ
  attestationSha256 : Digest
  headSha : Text

structure FreeTierResult where
  reviewedSha : Text
  receiptSha256 : Digest

/-- What the commands take from libraries: the closed models of the evidence, whose
    fields are URLs, dates and floats, and the parser of an anchor. -/
structure Boundary where
  attestation : ClosedModel PublicActivationAttestation
  evidence : ClosedModel ActivationEvidenceReceipt
  freeTier : ClosedModel FreeTierResult
  fromisoformat : Text → Option Datetime

/-- A phase with the files that `require_phase_arguments` asks for. -/
inductive Phase
  | reserve (attestation freeTierResult bindingHandshakeReceipt : Bytes)
  | commit (attestation freeTierResult bindingHandshakeReceipt activationReserveReceipt
      bindingFinalizeReceipt : Bytes)
  -- `freshAttestation` is the file beside the evidence with the name of the generation
  | reprepare (attestationGeneration : ℤ) (failedReservationReceipt previousAttestationReceipt
      activationEvidenceReceipt freshAttestation : Bytes)
  | restore (failedReservationReceipt bindingRestoreReceipt restoreVerificationReceipt : Bytes)

structure ActivateRequest where
  phase : Phase
  activationNonce : UUID
  expectedSha : Text

structure PhaseContext where
  db : ActivationDatabase
  activationNonce : UUID
  expectedSha : Text
  locked : LockedActivationState
  dbNow : Instant
  /-- The clock when the source is enabled. -/
  statementAt : Instant

/-- `datetime.isoformat` of an aware value. -/
def anchorFormat (d : Datetime) : Text :=
  let offset := d.utcoffset.getD 0
  let c := civil (d.instant + seconds offset)
  formatSeconds c ++ (if c.microsecond = 0 then [] else '.' :: padded 6 c.microsecond) ++
    (if offset < 0 then '-' else '+') :: padded 2 (offset.natAbs / 3600 : ℕ) ++
    ':' :: padded 2 (offset.natAbs / 60 % 60 : ℕ) ++
    (if offset % 60 = 0 then [] else ':' :: padded 2 (offset.natAbs % 60 : ℕ))

/-- `chain`: only a receipt that reports success is a predecessor. -/
def chain (raw : Bytes) (command : String) (state : ActivationTransition) :
    Except Hold ChainReceipt := do
  let receipt ← loadReceipt chainModel raw
  require (receipt.command = command.toList ∧ receipt.stateAfter = state ∧
    receipt.accepted = true) .receiptSemanticsMismatch
  return receipt

def fileSha {α : Type} (model : ClosedModel α) (value : α) : Digest :=
  sha256 (model.canonicalBytes value)

section Phases
variable (boundary : Boundary) (context : PhaseContext)

def commonEvidence (attestationFile freeTierFile : Bytes) :
    Except Hold (PublicActivationAttestation × FreeTierResult) := do
  let attestation ← loadReceipt boundary.attestation attestationFile
  let freeTier ← loadReceipt boundary.freeTier freeTierFile
  let state := context.locked.state
  require ((context.activationNonce = state.activationNonce ∧
      state.activationNonce = attestation.activationNonce) ∧
    (context.expectedSha = attestation.reviewedSha ∧
      attestation.reviewedSha = freeTier.reviewedSha) ∧
    attestation.attestationGeneration = state.attestationGeneration ∧
    (fileSha boundary.attestation attestation).hexdigest = state.attestationSha256 ∧
    attestation.freeTierEvidenceSha256 = freeTier.receiptSha256) .activationBindingMismatch
  return (attestation, freeTier)

def transitionIdentity (receiptSha256 : Digest) : TransitionIdentity where
  activationNonce := context.activationNonce
  attestationId := context.locked.attestationId
  bindingIntentId := context.locked.bindingIntentId
  predecessorTransitionId := context.locked.transitionId
  receiptSha256 := receiptSha256
  transitionId := uuid5 repositoryNamespace ("transition:".toList ++ receiptSha256.hexdigest)

/-- `activation_output`: the receipt of a phase, closed by its own hash. -/
def activationOutput (command : ActivationCommand) (accepted : Bool)
    (stateAfter : ActivationTransition) (generation : ℤ) (attestationSha256 : Digest)
    (predecessorSha256 : Digest) (cadenceAnchorAt reason : Option Text) : ActivationOutput :=
  let output : ActivationOutput := {
    command := command
    accepted := accepted
    activationNonce := context.activationNonce
    reviewedSha := context.expectedSha
    dbNow := PostArchive.isoformat context.dbNow
    stateBefore := context.locked.state.state
    stateAfter := stateAfter
    attestationGeneration := generation
    attestationSha256 := attestationSha256
    predecessorReceiptSha256 := predecessorSha256
    cadenceAnchorAt := cadenceAnchorAt
    reason := reason
    receiptSha256 := 0 }
  { output with receiptSha256 := hashDocument output.body }

/-- The digest of a plan; the plans only pass on values that passed `_require_hashes`. -/
def planned (sha : Text) : Except Hold Digest := present (digest? sha) .receiptProvenanceInvalid

def cadenceIdentity (receiptSha256 : Digest) : UUID :=
  uuid5 repositoryNamespace ("cadence:".toList ++ receiptSha256.hexdigest)

def reserve (attestationFile freeTierFile handshakeFile : Bytes) :
    Except Hold (ActivationOutput × ActivationDatabase) := do
  let _ ← commonEvidence boundary context attestationFile freeTierFile
  let handshake ← chain handshakeFile "handshake-github" .handshakePassed
  require (handshake.activationNonce = context.activationNonce) .handshakeNonceMismatch
  let plan ← planReserve {
    dbNow := context.dbNow
    state := context.locked.state
    predecessorSha256 :=
      (handshake.predecessorReceiptSha256.getD handshake.receiptSha256).hexdigest
    handshakeReceiptSha256 := handshake.receiptSha256.hexdigest }
  let output := activationOutput context .reserve true plan.nextState plan.attestationGeneration
    (← planned plan.attestationSha256) handshake.receiptSha256
    (some (PostArchive.isoformat plan.cadenceAnchorAt)) none
  let db ← persistReserve context.db {
    identity := transitionIdentity context output.receiptSha256
    dbNow := context.dbNow
    cadenceId := cadenceIdentity output.receiptSha256
    cadenceAnchorAt := plan.cadenceAnchorAt
    expiresAt := plan.cadenceAnchorAt + days 31
    recheckAt := plan.cadenceAnchorAt + days 30 }
  return (output, db)

/-- The identity of a decision or budget of the current attestation. -/
def evidenceIdentity (kind : String) : UUID :=
  uuid5 repositoryNamespace (context.activationNonce.str ++ ':' ::
    context.locked.state.attestationSha256 ++ ':' :: kind.toList)

/-- `plan.expires_at or anchor + timedelta(days=31)`. -/
def plannedExpiry (plan : CommitPlan) (anchor : Datetime) : Except Hold Instant :=
  match plan.expiresAt with
  | some t => .ok t
  | none => shifted anchor (days 31)

def commit (attestationFile freeTierFile handshakeFile reserveFile finalizeFile : Bytes) :
    Except Hold (ActivationOutput × ActivationDatabase) := do
  let (attestation, freeTier) ← commonEvidence boundary context attestationFile freeTierFile
  let handshake ← chain handshakeFile "handshake-github" .handshakePassed
  let reserveReceipt ← chain reserveFile "activation-reserve" .anchorReserved
  let finalized ← chain finalizeFile "finalize-github" .githubFinalized
  let anchorText ← present reserveReceipt.cadenceAnchorAt .cadenceAnchorMissing
  let anchor ← present (boundary.fromisoformat anchorText) .anchorInvalid
  let plan ← planCommit {
    dbNow := context.dbNow
    state := context.locked.state
    cadenceAnchorAt := anchor
    predecessorSha256 :=
      (finalized.predecessorReceiptSha256.getD finalized.receiptSha256).hexdigest
    attestationReceiptSha256 := (fileSha boundary.attestation attestation).hexdigest
    handshakeReceiptSha256 := handshake.receiptSha256.hexdigest
    finalizeReceiptSha256 := finalized.receiptSha256.hexdigest
    journalPayloadSha256 :=
      (finalized.payloadSha256.getD context.locked.bindingPayloadSha256).hexdigest }
  let output := activationOutput context .commit plan.accepted plan.nextState
    plan.attestationGeneration (← planned plan.attestationSha256) finalized.receiptSha256
    (some (anchorFormat anchor)) (plan.reason.map (fun r => r.value.toList))
  let expiresAt ← plannedExpiry plan anchor
  let db ← persistCommit context.db {
    identity := transitionIdentity context output.receiptSha256
    dbNow := context.dbNow
    statementAt := context.statementAt
    cadenceId := context.locked.cadenceId.getD (cadenceIdentity reserveReceipt.receiptSha256)
    authorizationId := evidenceIdentity context "authorization"
    budgetId := evidenceIdentity context "budget"
    authorizationEvidenceSha256 := attestation.authorizationEvidenceSha256
    budgetEvidenceSha256 := freeTier.receiptSha256
    effectiveAt := plan.effectiveAt.getD context.dbNow
    expiresAt := expiresAt
    accepted := plan.accepted }
  return (output, db)

def reprepare (generation : ℤ) (failedFile previousFile evidenceFile freshFile : Bytes) :
    Except Hold (ActivationOutput × ActivationDatabase) := do
  let failed ← chain failedFile "activation-commit" .failed
  let previous ← loadReceipt boundary.attestation previousFile
  let evidence ← loadReceipt boundary.evidence evidenceFile
  let fresh ← loadReceipt boundary.attestation freshFile
  let previousSha := fileSha boundary.attestation previous
  let freshSha := fileSha boundary.attestation fresh
  require (failed.activationNonce = context.activationNonce ∧
    failed.attestationSha256 = some previousSha ∧
    previousSha.hexdigest = context.locked.state.attestationSha256 ∧
    (evidence.activationNonce = fresh.activationNonce ∧
      fresh.activationNonce = context.activationNonce) ∧
    (evidence.attestationGeneration = fresh.attestationGeneration ∧
      fresh.attestationGeneration = generation) ∧
    evidence.attestationSha256 = freshSha ∧
    evidence.headSha = fresh.reviewedSha ∧ fresh.reviewedSha = context.expectedSha)
    .reprepareReceiptBindingMismatch
  let plan ← planReprepare {
    dbNow := context.dbNow
    state := context.locked.state
    requestedGeneration := generation
    previousAttestationSha256 := previousSha.hexdigest
    failedReservationSha256 := failed.receiptSha256.hexdigest
    freshEvidenceSha256 := freshSha.hexdigest
    freshEvidencePreparedAt := fresh.capturedAt
    freshEvidenceActivationNonce := fresh.activationNonce }
  let output := activationOutput context .reprepare true plan.nextState
    plan.attestationGeneration (← planned plan.attestationSha256)
    (fileSha boundary.evidence evidence) none none
  let db ← persistReprepare context.db {
    identity := transitionIdentity context output.receiptSha256
    dbNow := context.dbNow
    attestationId := uuid5 repositoryNamespace ("attestation:".toList ++
      context.activationNonce.str ++ ':' :: decimal generation ++ ':' :: freshSha.hexdigest)
    generation := generation
    attestationSha256 := freshSha
    preparedAt := fresh.capturedAt
    payloadSha256 := sha256 (encodeText (context.locked.bindingPayloadSha256.hexdigest ++
      ':' :: freshSha.hexdigest)) }
  return (output, db)

def deactivatedIdentity (receiptSha256 : Digest) : UUID :=
  uuid5 repositoryNamespace ("deactivated:".toList ++ receiptSha256.hexdigest)

def restore (failedFile restoreFile verificationFile : Bytes) :
    Except Hold (ActivationOutput × ActivationDatabase) := do
  let failed ← chain failedFile "activation-commit" .failed
  let _ ← chain restoreFile "restore-github" .restoreWriting
  let verified ← chain verificationFile "binding-restore-verify" .restoreWriting
  require (failed.activationNonce = context.activationNonce) .restoreNonceMismatch
  let (unlinking, writing) ← planRestore context.locked.state.state
  let output := activationOutput context .restore true writing
    context.locked.state.attestationGeneration (← planned context.locked.state.attestationSha256)
    verified.receiptSha256 none none
  let db ← persistRestore context.db {
    identity := transitionIdentity context output.receiptSha256
    dbNow := context.dbNow
    deactivatedId := deactivatedIdentity output.receiptSha256
    deactivatedReceiptSha256 := sha256 (encodeText (unlinking.value.toList ++ ':' ::
      verified.receiptSha256.hexdigest)) }
  return (output, db)

end Phases

/-- `execute`: one phase in a transaction that started at `dbNow`, before it acquired the
    lock. -/
def activate (boundary : Boundary) (request : ActivateRequest) (db : ActivationDatabase)
    (dbNow statementAt : Instant) : Except Hold (ActivationOutput × ActivationDatabase) := do
  let locked ← loadCurrentState db
  require (locked.state.activationNonce = request.activationNonce) .activationNonceMismatch
  let context : PhaseContext :=
    ⟨db, request.activationNonce, request.expectedSha, locked, dbNow, statementAt⟩
  match request.phase with
  | .reserve attestation freeTier handshake =>
    reserve boundary context attestation freeTier handshake
  | .commit attestation freeTier handshake reserved finalized =>
    commit boundary context attestation freeTier handshake reserved finalized
  | .reprepare generation failed previous evidence fresh =>
    reprepare boundary context generation failed previous evidence fresh
  | .restore failed restored verification =>
    restore context failed restored verification

abbrev JsonDocument := Fields

instance : DecidableEq Json := fun v w =>
  decidable_of_iff (render v = render w) render_injective.eq_iff

/-- A truth value is a number to `==`. -/
def number? : Json → Option ℤ
  | .bool b => some (if b then 1 else 0)
  | .int i => some i
  | _ => none

/-- `==` of two JSON values, one of them a scalar. -/
def Equals (v w : Json) : Prop := v = w ∨ ((number? v).isSome = true ∧ number? v = number? w)

instance (v w : Json) : Decidable (Equals v w) := inferInstanceAs (Decidable (_ ∨ _))

/-- `document.get(name)`. -/
def JsonDocument.get (document : JsonDocument) (name : String) : Json :=
  ((document.find? (fun p => p.1 = name.toList)).map Prod.snd).getD .null

/-- `sha`: the members are sorted by their names. -/
def sha (document : JsonDocument) : Digest :=
  sha256 (canonicalBytes (fun s => s) (.dict document))

structure BindingPayload where
  protectedJson : Text
  sourceIds : Text
  scopeVersion : Text
deriving DecidableEq

def BindingPayload.sha256 (payload : BindingPayload) : Digest :=
  hashDocument (.object [
    ("protected_json", .str payload.protectedJson),
    ("scope_version", .str payload.scopeVersion),
    ("source_ids", .str payload.sourceIds)])

inductive MutationError
  | cli | bindingConflict | github | connectionLost | database (hold : Hold)
deriving DecidableEq

/-- `field`: a text that is not empty. -/
def field (document : JsonDocument) (name : String) : Except MutationError Text :=
  match document.get name with
  | .str (c :: s) => .ok (c :: s)
  | _ => .error .cli

def bindingPayload (document : JsonDocument) (nonce : UUID) :
    Except MutationError BindingPayload := do
  require ((← field document "activation_nonce") = nonce.str) .cli
  let payload : BindingPayload := {
    protectedJson := ← field document "protected_json"
    sourceIds := ← field document "source_ids"
    scopeVersion := ← field document "scope_version" }
  let expected := document.get "payload_sha256"
  require (expected = .null ∨ expected = Digest.json payload.sha256) .cli
  return payload

inductive MutationCommand
  | applyGithub | handshakeGithub | finalizeGithub | restoreGithub
deriving DecidableEq

def MutationCommand.value : MutationCommand → String
  | .applyGithub => "apply-github"
  | .handshakeGithub => "handshake-github"
  | .finalizeGithub => "finalize-github"
  | .restoreGithub => "restore-github"

/-- The arguments with the documents that `load` reads. -/
structure MutationArgs where
  command : MutationCommand
  activationNonce : UUID
  payloadReceipt : JsonDocument
  prestateReceipt : JsonDocument
  attestationId : UUID
  handshakeReceipt : Option JsonDocument := none
  cadenceAnchorAt : Option Text := none

/-- What a mutation meets outside of the database: the variables it reads, `none` where
    the call fails, whether its writes succeed, when its transactions start, and whether
    the connection is lost after the first of them. -/
structure Session where
  scopeVersion : Option Text
  sourceIds : Option Text
  deploymentActivationAt : Option Text
  writes : Bool
  first : Instant
  second : Instant
  interrupted : Bool

structure MutationContext where
  args : MutationArgs
  nonce : UUID
  payload : BindingPayload
  prestate : JsonDocument
  intentId : UUID
  attestationId : UUID
  latestState : Option ActivationTransition

section Mutations
variable (db : ActivationDatabase)

def latestOfIntent (intentId : UUID) : Option ActivationTransition :=
  (latest rank (db.transitions.rows.filter (fun row => row.bindingIntentId = some intentId))).map
    SourceActivationStateTransition.state

def Conflicting (nonce : UUID) : Prop :=
  ∃ intent ∈ db.intents.rows, intent.activationNonce ≠ nonce ∧
    ∃ state ∈ latestOfIntent db intent.id, state ∉ [.active, .restored, .failed]

instance (nonce : UUID) : Decidable (Conflicting db nonce) :=
  inferInstanceAs (Decidable (∃ _ ∈ _, _))

def intentIdentity (nonce : UUID) (payload : BindingPayload) : UUID :=
  uuid5 repositoryNamespace ("binding-intent:".toList ++ nonce.str ++ ':' ::
    payload.sha256.hexdigest)

/-- The insertion of `ensure_intent`: one intent for an activation. -/
def insertIntent (row : SourceBindingChangeIntent) : Except MutationError ActivationDatabase := do
  if ∃ other ∈ db.intents.rows, other.activationNonce = row.activationNonce then
    return db
  else do
    require ((db.attestations.find? row.attestationId).isSome) (.database .integrity)
    let intents ← present (db.intents.insert? row) (.database .integrity)
    return { db with intents := intents }

def ensureIntent (nonce : UUID) (payload : BindingPayload) (prestateSha : Digest)
    (attestationId : UUID) : Except MutationError (ActivationDatabase × UUID) := do
  require (¬Conflicting db nonce) .bindingConflict
  let row : SourceBindingChangeIntent := {
    id := intentIdentity nonce payload
    activationNonce := nonce
    sourceId := manifoldSourceId
    attestationId := attestationId
    payloadSha256 := payload.sha256
    prestateSha256 := prestateSha
    scopeVersion := payload.scopeVersion }
  let db ← insertIntent db row
  let stored ← present (db.intents.rows.find? (fun intent => intent.activationNonce = nonce))
    .bindingConflict
  require (stored.id = row.id ∧ stored.payloadSha256 = row.payloadSha256 ∧
    stored.prestateSha256 = row.prestateSha256 ∧ stored.scopeVersion = row.scopeVersion ∧
    stored.attestationId = row.attestationId) .bindingConflict
  return (db, row.id)

/-- What a mutation leaves behind, also when it stops between its transactions. -/
abbrev Outcome := ActivationDatabase × Except MutationError (ActivationTransition × Bool)

def MutationContext.append (context : MutationContext) (state : ActivationTransition)
    (startedAt : Instant) : Except Hold ActivationDatabase :=
  appendTransition db context.nonce context.intentId context.attestationId state startedAt

def MutationContext.appending (context : MutationContext) (state : ActivationTransition)
    (startedAt : Instant) (next : ActivationDatabase → Outcome) : Outcome :=
  match context.append db state startedAt with
  | .ok appended => next appended
  | .error hold => (db, .error (.database hold))

/-- The variables and the secret are written unless the live binding matches. -/
def applyBinding (context : MutationContext) (session : Session) : Except MutationError Bool := do
  let scope ← present session.scopeVersion .github
  if scope = context.payload.scopeVersion then do
    let ids ← present session.sourceIds .github
    if ids = context.payload.sourceIds then return true
    else do
      require (session.writes = true) .github
      return false
  else do
    require (session.writes = true) .github
    return false

def apply (context : MutationContext) (session : Session) : Outcome :=
  if context.latestState ∉ [some .prepared, some .bindingWriting, some .bindingCommitted] then
    (db, .error .cli)
  else context.appending db .bindingWriting session.first fun db =>
    if session.interrupted = true then (db, .error .connectionLost)
    else
      match applyBinding context session with
      | .error e => (db, .error e)
      | .ok recovered => context.appending db .bindingCommitted session.second fun db =>
        (db, .ok (.bindingCommitted, recovered))

def handshakeExpected (context : MutationContext) : JsonDocument :=
  [("accepted".toList, .bool true),
   ("activation_nonce".toList, UUID.json context.nonce),
   ("mode".toList, .ofString "binding-handshake"),
   ("payload_sha256".toList, Digest.json context.payload.sha256),
   ("provider_request_count".toList, .int 0),
   ("scope_version".toList, .str context.payload.scopeVersion),
   ("source_ids".toList, .str context.payload.sourceIds)]

/-- `any(receipt.get(key) != value for ...)` fails. -/
def HandshakeMatches (context : MutationContext) (receipt : JsonDocument) : Prop :=
  ∀ expected ∈ handshakeExpected context,
    Equals (((receipt.find? (fun p => p.1 = expected.1)).map Prod.snd).getD .null) expected.2

instance (context : MutationContext) (receipt : JsonDocument) :
    Decidable (HandshakeMatches context receipt) :=
  List.decidableBAll _ (handshakeExpected context)

def handshake (context : MutationContext) (session : Session) : Outcome :=
  if context.latestState ∉ [some .bindingCommitted, some .handshakePassed] then
    (db, .error .cli)
  else
    match context.args.handshakeReceipt with
    | none => (db, .error .cli)
    | some receipt =>
      if HandshakeMatches context receipt then
        context.appending db .handshakePassed session.first fun db =>
          (db, .ok (.handshakePassed, false))
      else (db, .error .cli)

def finalize (context : MutationContext) (session : Session) : Outcome :=
  if context.latestState ∉ [some .anchorReserved, some .githubFinalized] then
    (db, .error .cli)
  else
    match context.args.cadenceAnchorAt with
    | none | some [] => (db, .error .cli)
    | some anchor =>
      match (if session.writes = true then session.deploymentActivationAt else none) with
      | none => (db, .error .github)
      | some stored =>
        if stored = anchor then
          context.appending db .githubFinalized session.first fun db =>
            (db, .ok (.githubFinalized, false))
        else (db, .error .cli)

def writeBack (session : Session) : Outcome :=
  if session.writes = true then (db, .ok (.restoreWriting, false)) else (db, .error .github)

def restoreGithub (context : MutationContext) (session : Session) : Outcome :=
  match bindingPayload context.prestate context.nonce with
  | .error e => (db, .error e)
  | .ok _ =>
    if context.latestState = some .failed then
      match session.scopeVersion with
      | none => (db, .error .github)
      | some scope =>
        if scope = context.payload.scopeVersion then
          context.appending db .deactivated session.first fun db =>
            if session.interrupted = true then (db, .error .connectionLost)
            else context.appending db .restoreWriting session.second fun db => writeBack db session
        else (db, .error .cli)
    else if context.latestState = some .restoreWriting then writeBack db session
    else (db, .error .cli)

/-- The receipt of a mutation, with its members in the order of `sort_keys`. -/
def mutationFields (args : MutationArgs) (payload : BindingPayload)
    (state : ActivationTransition) (recovered : Bool) : List (String × Json) :=
  [("activation_nonce", UUID.json args.activationNonce),
   ("command", .ofString args.command.value),
   ("payload_sha256", Digest.json payload.sha256),
   ("recovered_after_lost_receipt", .bool recovered),
   ("redacted", .bool true),
   ("state", .ofString state.value)]

/-- `write`. -/
def writeMutation (fields : List (String × Json)) : Bytes := dumps (.object fields) ++ [10]

/-- `mutate`, with the file it writes when it succeeds. -/
def mutate (args : MutationArgs) (session : Session) :
    ActivationDatabase × Except MutationError Bytes :=
  match bindingPayload args.payloadReceipt args.activationNonce with
  | .error e => (db, .error e)
  | .ok payload =>
    match ensureIntent db args.activationNonce payload (sha args.prestateReceipt)
        args.attestationId with
    | .error e => (db, .error e)
    | .ok (ensured, intentId) =>
      let context : MutationContext := {
        args := args
        nonce := args.activationNonce
        payload := payload
        prestate := args.prestateReceipt
        intentId := intentId
        attestationId := args.attestationId
        latestState := latestState ensured args.activationNonce }
      let outcome := match args.command with
        | .applyGithub => apply ensured context session
        | .handshakeGithub => handshake ensured context session
        | .finalizeGithub => finalize ensured context session
        | .restoreGithub => restoreGithub ensured context session
      (outcome.1, outcome.2.map (fun r => writeMutation (mutationFields args payload r.1 r.2)))

end Mutations

inductive Operation
  | phase (request : ActivateRequest) (dbNow statementAt : Instant)
  | mutation (args : MutationArgs) (session : Session)

section Histories
variable (boundary : Boundary)

/-- The database after an operation; a phase that fails is rolled back. -/
def perform (db : ActivationDatabase) : Operation → ActivationDatabase
  | .phase request dbNow statementAt =>
    match activate boundary request db dbNow statementAt with
    | .ok (_, next) => next
    | .error _ => db
  | .mutation args session => (mutate db args session).1

def step (db : ActivationDatabase) (operation : Operation) : Except Empty ActivationDatabase :=
  .ok (perform boundary db operation)

end Histories

end PredictionMarketMonitor.ActivationCommands
