import PredictionMarketMonitor.ActivationCommands

set_option autoImplicit false

/-!
# What an accepted phase has checked and writes

One lemma for each phase and each write; the invariants of a history are read off them.
-/
namespace PredictionMarketMonitor.ActivationEffects

open ActivationCommands ActivationJournal ActivationPlans ActivationReceipts CanonicalJson
open CivilTime CollectionBase FallibleSteps KeyedTable Sha256

section Plans

theorem planReserve_ok {value : ReserveInput} {plan : ReservePlan}
    (h : planReserve value = .ok plan) : Inert value.state ∧
      (value.state.state = .handshakePassed ∨
        (value.state.state = .failed ∧ value.state.bindingWriteOccurred = false)) ∧
      PreparationUsable value.state.preparedAt value.dbNow ∧
      plan.cadenceAnchorAt = hourFloor value.dbNow + hours 3 ∧
      plan.nextState = .anchorReserved ∧
      plan.attestationGeneration = value.state.attestationGeneration ∧
      plan.attestationSha256 = value.state.attestationSha256 := by
  obtain ⟨hinert, h⟩ := require_bind.mp h
  obtain ⟨_, h⟩ := require_bind.mp h
  obtain ⟨hstate, h⟩ := require_bind.mp h
  obtain ⟨husable, h⟩ := require_bind.mp h
  obtain rfl := Except.ok.inj h
  exact ⟨hinert, hstate, husable, rfl, rfl, rfl, rfl⟩

structure CommitDecision (value : CommitInput) (plan : CommitPlan) : Prop where
  inert : Inert value.state
  finalized : value.state.state = .githubFinalized
  aware : value.cadenceAnchorAt.Aware
  generation : plan.attestationGeneration = value.state.attestationGeneration
  accepted : plan.accepted = true → PreparationUsable value.state.preparedAt value.dbNow ∧
    value.dbNow < value.cadenceAnchorAt.instant - hours 1 ∧ plan.effectiveAt = some value.dbNow ∧
    plan.expiresAt = some (value.cadenceAnchorAt.instant + days 31) ∧ plan.nextState = .active
  refused : plan.accepted = false → plan.nextState = .failed ∧
    (¬PreparationUsable value.state.preparedAt value.dbNow ∨
      ¬value.dbNow < value.cadenceAnchorAt.instant - hours 1)

theorem shifted_ok {anchor : Datetime} {delta : ℤ} {t : Instant}
    (h : shifted anchor delta = .ok t) : t = anchor.instant + delta := by
  obtain ⟨_, h⟩ := require_bind.mp h
  exact (Except.ok.inj h).symm

theorem planCommit_ok {value : CommitInput} {plan : CommitPlan} (h : planCommit value = .ok plan) :
    CommitDecision value plan := by
  obtain ⟨hinert, h⟩ := require_bind.mp h
  obtain ⟨_, h⟩ := require_bind.mp h
  obtain ⟨hstate, h⟩ := require_bind.mp h
  obtain ⟨cutoff, hcutoff, h⟩ := bind_eq_ok.mp h
  obtain ⟨haware, h⟩ := require_bind.mp h
  have hbefore : cutoff = value.cadenceAnchorAt.instant - hours 1 := by
    rw [shifted_ok hcutoff, Int.sub_eq_add_neg]
  rw [hbefore] at h
  by_cases husable : PreparationUsable value.state.preparedAt value.dbNow
  · rw [if_neg (not_not_intro husable)] at h
    by_cases hearly : value.dbNow < value.cadenceAnchorAt.instant - hours 1
    · rw [if_neg (not_not_intro hearly)] at h
      obtain ⟨expires, hexpires, h⟩ := bind_eq_ok.mp h
      obtain rfl := Except.ok.inj h
      have hshift := shifted_ok hexpires
      refine ⟨hinert, hstate, haware, rfl, fun _ => ⟨husable, hearly, rfl, ?_, rfl⟩, ?_⟩
      · rw [hshift]
      · intro hfalse
        cases hfalse
    · rw [if_pos hearly] at h
      obtain rfl := Except.ok.inj h
      refine ⟨hinert, hstate, haware, rfl, fun htrue => ?_, fun _ => ⟨rfl, .inr hearly⟩⟩
      cases htrue
  · rw [if_pos husable] at h
    obtain rfl := Except.ok.inj h
    refine ⟨hinert, hstate, haware, rfl, fun htrue => ?_, fun _ => ⟨rfl, .inl husable⟩⟩
    cases htrue

theorem planReprepare_ok {value : ReprepareInput} {plan : RepreparePlan}
    (h : planReprepare value = .ok plan) : Inert value.state ∧
      (value.state.state = .failed ∨ value.state.state = .restoreWriting) ∧
      value.requestedGeneration = value.state.attestationGeneration + 1 ∧
      value.freshEvidenceSha256 ≠ value.state.attestationSha256 ∧
      PreparationUsable value.freshEvidencePreparedAt value.dbNow ∧
      (value.state.bindingWriteOccurred = false ∨ value.state.restoreVerified = true) := by
  obtain ⟨hinert, h⟩ := require_bind.mp h
  obtain ⟨_, h⟩ := require_bind.mp h
  obtain ⟨hstate, h⟩ := require_bind.mp h
  obtain ⟨_, h⟩ := require_bind.mp h
  obtain ⟨hgeneration, h⟩ := require_bind.mp h
  obtain ⟨_, h⟩ := require_bind.mp h
  obtain ⟨hfresh, h⟩ := require_bind.mp h
  obtain ⟨husable, h⟩ := require_bind.mp h
  obtain ⟨hrestored, h⟩ := require_bind.mp h
  exact ⟨hinert, hstate, hgeneration, hfresh, husable, hrestored⟩

end Plans

section Loading
variable {db : ActivationDatabase} {locked : LockedActivationState}

/-- What a loaded state says of the rows it was read from. -/
structure Loaded (db : ActivationDatabase) (locked : LockedActivationState)
    (row : SourceActivationStateTransition) (attestation : SourceActivationAttestation) :
    Prop where
  current : currentTransition db = some row
  attestationId : row.attestationId = some locked.attestationId
  attested : db.attestations.find? locked.attestationId = some attestation
  bindingIntentId : row.bindingIntentId = some locked.bindingIntentId
  transitionId : locked.transitionId = row.id
  nonce : locked.state.activationNonce = row.activationNonce
  state : locked.state.state = row.state
  generation : locked.state.attestationGeneration = attestation.attestationGeneration
  attestationSha256 : locked.state.attestationSha256 = attestation.attestationSha256.hexdigest
  preparedAt : locked.state.preparedAt = attestation.preparedAt
  enabled : locked.state.sourceEnabled = db.source.enabled
  authorization : locked.state.activeAuthorizationId = db.source.activeAuthorizationId
  budget : locked.state.currentBudgetId = db.source.currentBudgetId
  binding : locked.state.currentBindingId = db.source.currentBindingId
  cadence : locked.state.currentCadenceId = db.source.currentCadenceId
  written : locked.state.bindingWriteOccurred = true ↔
    BindingWritten db row.activationNonce locked.attestationId
  verified : locked.state.restoreVerified = true ↔ row.state = .restoreWriting
  cadenceId : locked.cadenceId = row.currentCadenceId

theorem loadCurrentState_ok (h : loadCurrentState db = .ok locked) :
    ∃ row attestation, Loaded db locked row attestation := by
  obtain ⟨row, hrow, h⟩ := bind_eq_ok.mp h
  obtain ⟨attestationId, hattestationId, h⟩ := bind_eq_ok.mp h
  obtain ⟨attestation, hattestation, h⟩ := bind_eq_ok.mp h
  obtain ⟨intentId, hintentId, h⟩ := bind_eq_ok.mp h
  obtain ⟨intent, _, h⟩ := bind_eq_ok.mp h
  have hlocked := Except.ok.inj h
  subst hlocked
  exact ⟨row, attestation, present_eq_ok.mp hrow, present_eq_ok.mp hattestationId,
    present_eq_ok.mp hattestation, present_eq_ok.mp hintentId, rfl, rfl, rfl, rfl, rfl, rfl, rfl,
    rfl, rfl, rfl, rfl, decide_eq_true_iff, decide_eq_true_iff, rfl⟩

end Loading

section Phases
variable {boundary : Boundary} {context : PhaseContext} {output : ActivationOutput}
  {next : ActivationDatabase}

structure Reserving (context : PhaseContext) (output : ActivationOutput)
    (next : ActivationDatabase) (value : ReserveWrite) : Prop where
  inert : Inert context.locked.state
  state : context.locked.state.state = .handshakePassed ∨
    (context.locked.state.state = .failed ∧ context.locked.state.bindingWriteOccurred = false)
  usable : PreparationUsable context.locked.state.preparedAt context.dbNow
  identity : value.identity = transitionIdentity context output.receiptSha256
  dbNow : value.dbNow = context.dbNow
  cadenceId : value.cadenceId = cadenceIdentity output.receiptSha256
  anchor : value.cadenceAnchorAt = hourFloor context.dbNow + hours 3
  persisted : persistReserve context.db value = .ok next

theorem reserve_ok {attestation freeTier handshake : Bytes}
    (h : reserve boundary context attestation freeTier handshake = .ok (output, next)) :
    ∃ value, Reserving context output next value := by
  obtain ⟨_, _, h⟩ := bind_eq_ok.mp h
  obtain ⟨_, _, h⟩ := bind_eq_ok.mp h
  obtain ⟨_, h⟩ := require_bind.mp h
  obtain ⟨plan, hplan, h⟩ := bind_eq_ok.mp h
  obtain ⟨_, _, h⟩ := bind_eq_ok.mp h
  obtain ⟨db, hpersist, h⟩ := bind_eq_ok.mp h
  obtain ⟨rfl, rfl⟩ := Prod.mk.inj (Except.ok.inj h)
  obtain ⟨hinert, hstate, husable, hanchor, _⟩ := planReserve_ok hplan
  refine ⟨_, hinert, hstate, husable, ?_, ?_, ?_, ?_, hpersist⟩
  · rfl
  · rfl
  · rfl
  · exact hanchor

/-- A commit: the receipts it read, its decision and its write. -/
structure Committing (boundary : Boundary) (context : PhaseContext) (reserveFile : Bytes)
    (output : ActivationOutput) (next : ActivationDatabase) (receipt : ChainReceipt)
    (anchor : Datetime) (value : CommitWrite) : Prop where
  loaded : chain reserveFile "activation-reserve" .anchorReserved = .ok receipt
  anchorText : ∃ text ∈ receipt.cadenceAnchorAt, boundary.fromisoformat text = some anchor
  inert : Inert context.locked.state
  state : context.locked.state.state = .githubFinalized
  accepted : value.accepted = true →
    PreparationUsable context.locked.state.preparedAt context.dbNow ∧
      context.dbNow < anchor.instant - hours 1
  reported : output.accepted = value.accepted
  failed : value.accepted = false → output.stateAfter = .failed
  identity : value.identity = transitionIdentity context output.receiptSha256
  dbNow : value.dbNow = context.dbNow
  cadenceId : value.cadenceId =
    context.locked.cadenceId.getD (cadenceIdentity receipt.receiptSha256)
  persisted : persistCommit context.db value = .ok next

theorem commit_ok {attestation freeTier handshake reserveFile finalize : Bytes}
    (h : commit boundary context attestation freeTier handshake reserveFile finalize =
      .ok (output, next)) :
    ∃ receipt anchor value,
      Committing boundary context reserveFile output next receipt anchor value := by
  obtain ⟨_, _, h⟩ := bind_eq_ok.mp h
  obtain ⟨_, _, h⟩ := bind_eq_ok.mp h
  obtain ⟨receipt, hreceipt, h⟩ := bind_eq_ok.mp h
  obtain ⟨_, _, h⟩ := bind_eq_ok.mp h
  obtain ⟨text, htext, h⟩ := bind_eq_ok.mp h
  obtain ⟨anchor, hanchor, h⟩ := bind_eq_ok.mp h
  obtain ⟨plan, hplan, h⟩ := bind_eq_ok.mp h
  obtain ⟨_, _, h⟩ := bind_eq_ok.mp h
  obtain ⟨_, _, h⟩ := bind_eq_ok.mp h
  obtain ⟨db, hpersist, h⟩ := bind_eq_ok.mp h
  obtain ⟨rfl, rfl⟩ := Prod.mk.inj (Except.ok.inj h)
  have hdecision := planCommit_ok hplan
  refine ⟨receipt, anchor, _, hreceipt, ⟨text, present_eq_ok.mp htext, present_eq_ok.mp hanchor⟩,
    hdecision.inert, hdecision.finalized, ?_, ?_, ?_, ?_, ?_, ?_, hpersist⟩
  · intro haccepted
    obtain ⟨husable, hearly, _⟩ := hdecision.accepted haccepted
    exact ⟨husable, hearly⟩
  · rfl
  · intro hrefused
    exact (hdecision.refused hrefused).1
  · rfl
  · rfl
  · rfl

/-- A preparation of the next generation: its plan and its write. -/
structure Repreparing (context : PhaseContext) (output : ActivationOutput)
    (next : ActivationDatabase) (value : ReprepareWrite) : Prop where
  inert : Inert context.locked.state
  state : context.locked.state.state = .failed ∨ context.locked.state.state = .restoreWriting
  generation : value.generation = context.locked.state.attestationGeneration + 1
  fresh : value.attestationSha256.hexdigest ≠ context.locked.state.attestationSha256
  restored : context.locked.state.bindingWriteOccurred = false ∨
    context.locked.state.restoreVerified = true
  identity : value.identity = transitionIdentity context output.receiptSha256
  dbNow : value.dbNow = context.dbNow
  attestationId : value.attestationId = uuid5 repositoryNamespace ("attestation:".toList ++
    context.activationNonce.str ++ ':' :: decimal value.generation ++ ':' ::
      value.attestationSha256.hexdigest)
  usable : PreparationUsable value.preparedAt context.dbNow
  persisted : persistReprepare context.db value = .ok next

theorem reprepare_ok {generation : ℤ} {failed previous evidence fresh : Bytes}
    (h : reprepare boundary context generation failed previous evidence fresh =
      .ok (output, next)) : ∃ value, Repreparing context output next value := by
  obtain ⟨_, _, h⟩ := bind_eq_ok.mp h
  obtain ⟨_, _, h⟩ := bind_eq_ok.mp h
  obtain ⟨_, _, h⟩ := bind_eq_ok.mp h
  obtain ⟨_, _, h⟩ := bind_eq_ok.mp h
  obtain ⟨_, h⟩ := require_bind.mp h
  obtain ⟨plan, hplan, h⟩ := bind_eq_ok.mp h
  obtain ⟨_, _, h⟩ := bind_eq_ok.mp h
  obtain ⟨db, hpersist, h⟩ := bind_eq_ok.mp h
  obtain ⟨rfl, rfl⟩ := Prod.mk.inj (Except.ok.inj h)
  obtain ⟨hinert, hstate, hgeneration, hfresh, husable, hrestored⟩ := planReprepare_ok hplan
  refine ⟨_, hinert, hstate, hgeneration, hfresh, hrestored, ?_, ?_, ?_, husable, hpersist⟩
  · rfl
  · rfl
  · rfl

structure Restoring (context : PhaseContext) (output : ActivationOutput)
    (next : ActivationDatabase) (value : RestoreWrite) : Prop where
  state : context.locked.state.state = .failed
  identity : value.identity = transitionIdentity context output.receiptSha256
  dbNow : value.dbNow = context.dbNow
  deactivatedId : value.deactivatedId = deactivatedIdentity output.receiptSha256
  persisted : persistRestore context.db value = .ok next

theorem restore_ok {failed restored verification : Bytes}
    (h : restore context failed restored verification = .ok (output, next)) :
    ∃ value, Restoring context output next value := by
  obtain ⟨_, _, h⟩ := bind_eq_ok.mp h
  obtain ⟨_, _, h⟩ := bind_eq_ok.mp h
  obtain ⟨_, _, h⟩ := bind_eq_ok.mp h
  obtain ⟨_, h⟩ := require_bind.mp h
  obtain ⟨states, hplan, h⟩ := bind_eq_ok.mp h
  obtain ⟨_, _, h⟩ := bind_eq_ok.mp h
  obtain ⟨db, hpersist, h⟩ := bind_eq_ok.mp h
  obtain ⟨rfl, rfl⟩ := Prod.mk.inj (Except.ok.inj h)
  obtain ⟨hstate, _⟩ := require_bind.mp hplan
  refine ⟨_, hstate, ?_, ?_, ?_, hpersist⟩
  · rfl
  · rfl
  · rfl

/-- An accepted phase, with the context it ran in. -/
inductive Accepted (boundary : Boundary) (context : PhaseContext) (output : ActivationOutput)
    (next : ActivationDatabase) : Phase → Prop
  | reserve {a f h : Bytes} (value : ReserveWrite)
      (effect : Reserving context output next value) :
      Accepted boundary context output next (.reserve a f h)
  | commit {a f h r g : Bytes} (receipt : ChainReceipt) (anchor : Datetime) (value : CommitWrite)
      (effect : Committing boundary context r output next receipt anchor value) :
      Accepted boundary context output next (.commit a f h r g)
  | reprepare {n : ℤ} {f p e a : Bytes} (value : ReprepareWrite)
      (effect : Repreparing context output next value) :
      Accepted boundary context output next (.reprepare n f p e a)
  | restore {f r v : Bytes} (value : RestoreWrite)
      (effect : Restoring context output next value) :
      Accepted boundary context output next (.restore f r v)

def contextOf (request : ActivateRequest) (db : ActivationDatabase)
    (locked : LockedActivationState) (dbNow statementAt : Instant) : PhaseContext :=
  ⟨db, request.activationNonce, request.expectedSha, locked, dbNow, statementAt⟩

theorem activate_ok {request : ActivateRequest} {db : ActivationDatabase}
    {dbNow statementAt : Instant}
    (h : activate boundary request db dbNow statementAt = .ok (output, next)) :
    ∃ locked, loadCurrentState db = .ok locked ∧
      locked.state.activationNonce = request.activationNonce ∧
      Accepted boundary (contextOf request db locked dbNow statementAt) output next
        request.phase := by
  obtain ⟨locked, hlocked, h⟩ := bind_eq_ok.mp h
  obtain ⟨hnonce, h⟩ := require_bind.mp h
  refine ⟨locked, hlocked, hnonce, ?_⟩
  obtain ⟨phase, nonce, sha⟩ := request
  cases phase with
  | reserve a f g =>
    obtain ⟨value, heffect⟩ := reserve_ok h
    exact .reserve value heffect
  | commit a f g r k =>
    obtain ⟨receipt, anchor, value, heffect⟩ := commit_ok h
    exact .commit receipt anchor value heffect
  | reprepare n f p e a =>
    obtain ⟨value, heffect⟩ := reprepare_ok h
    exact .reprepare value heffect
  | restore f r v =>
    obtain ⟨value, heffect⟩ := restore_ok h
    exact .restore value heffect

end Phases

section Writes
variable {db next : ActivationDatabase} {row : SourceActivationStateTransition}

theorem insertOnce_ok (h : insertOnce db row = .ok next) : next = db ∨
    (RefersOk db row ∧ ∃ transitions, db.transitions.insert? row = some transitions ∧
      next = { db with transitions := transitions }) := by
  rw [insertOnce] at h
  split at h
  · exact .inl (Except.ok.inj h).symm
  · obtain ⟨hrefers, h⟩ := require_bind.mp h
    obtain ⟨transitions, hinsert, h⟩ := bind_eq_ok.mp h
    exact .inr ⟨hrefers, transitions, present_eq_ok.mp hinsert, (Except.ok.inj h).symm⟩

theorem insertCadence_ok {epoch : SourceCadenceEpoch} (h : insertCadence db epoch = .ok next) :
    next = db ∨ ∃ epochs, db.epochs.insert? epoch = some epochs ∧
      next = { db with epochs := epochs } := by
  rw [insertCadence] at h
  split at h
  · exact .inl (Except.ok.inj h).symm
  · obtain ⟨epochs, hinsert, h⟩ := bind_eq_ok.mp h
    exact .inr ⟨epochs, present_eq_ok.mp hinsert, (Except.ok.inj h).symm⟩

theorem insertAuthorization_ok {decision : SourceAuthorizationDecision}
    (h : insertAuthorization db decision = .ok next) :
    ∃ authorizations, next = { db with authorizations := authorizations } := by
  obtain ⟨_, h⟩ := require_bind.mp h
  split at h
  · exact ⟨_, (Except.ok.inj h).symm⟩
  · obtain ⟨authorizations, _, h⟩ := bind_eq_ok.mp h
    exact ⟨authorizations, (Except.ok.inj h).symm⟩

theorem insertBudget_ok {record : ProviderBudgetRecord} (h : insertBudget db record = .ok next) :
    ∃ budgets, next = { db with budgets := budgets } := by
  obtain ⟨_, h⟩ := require_bind.mp h
  split at h
  · exact ⟨_, (Except.ok.inj h).symm⟩
  · obtain ⟨budgets, _, h⟩ := bind_eq_ok.mp h
    exact ⟨budgets, (Except.ok.inj h).symm⟩

theorem activateSource_ok {value : CommitWrite} (h : activateSource db value = .ok next) :
    (db.source = unlinked ∨ db.source = value.activated) ∧ Activatable db value ∧
      next = { db with source := value.activated } := by
  obtain ⟨hsource, h⟩ := require_bind.mp h
  obtain ⟨hactivatable, h⟩ := require_bind.mp h
  exact ⟨hsource, hactivatable, (Except.ok.inj h).symm⟩

def preparedAttestation (value : ReprepareWrite) (prior : SourceActivationAttestation) :
    SourceActivationAttestation where
  id := value.attestationId
  sourceId := manifoldSourceId
  activationNonce := value.identity.activationNonce
  attestationGeneration := value.generation
  attestationSha256 := value.attestationSha256
  predecessorAttestationSha256 := some prior.attestationSha256
  preparedAt := value.preparedAt

theorem insertAttestation_ok {value : ReprepareWrite} (h : insertAttestation db value = .ok next) :
    next = db ∨ ∃ prior attestations,
      db.attestations.find? value.identity.attestationId = some prior ∧
      (∀ other ∈ db.attestations.rows, other.activationNonce = value.identity.activationNonce →
        other.attestationGeneration ≠ value.generation) ∧
      db.attestations.insert? (preparedAttestation value prior) = some attestations ∧
      next = { db with attestations := attestations } := by
  rw [insertAttestation] at h
  cases hprior : db.attestations.find? value.identity.attestationId with
  | none =>
    rw [hprior] at h
    exact .inl (Except.ok.inj h).symm
  | some prior =>
    rw [hprior] at h
    dsimp only at h
    split at h
    · exact .inl (Except.ok.inj h).symm
    · rename_i hfree
      obtain ⟨attestations, hinsert, h⟩ := bind_eq_ok.mp h
      refine .inr ⟨prior, attestations, rfl, ?_, present_eq_ok.mp hinsert,
        (Except.ok.inj h).symm⟩
      intro other hother hnonce hgeneration
      exact hfree ⟨other, hother, hnonce, hgeneration⟩

theorem rotateIntent_ok {value : ReprepareWrite} (h : rotateIntent db value = .ok next) :
    next = { db with intents := rotateIntents value db.intents } := by
  obtain ⟨_, h⟩ := require_bind.mp h
  exact (Except.ok.inj h).symm

theorem persistReserve_ok {value : ReserveWrite} (h : persistReserve db value = .ok next) :
    ∃ mid, insertCadence db ⟨value.cadenceId, value.identity.activationNonce, manifoldSourceId,
        value.cadenceAnchorAt, value.expiresAt, value.recheckAt⟩ = .ok mid ∧
      insertTransition mid { value.identity.row .anchorReserved value.dbNow with
        currentCadenceId := some value.cadenceId } = .ok next := bind_eq_ok.mp h

def activeRow (value : CommitWrite) : SourceActivationStateTransition :=
  { value.identity.row .active value.dbNow with
    currentAuthorizationId := some value.authorizationId
    currentBudgetId := some value.budgetId
    currentBindingId := some value.identity.bindingIntentId
    currentCadenceId := some value.cadenceId }

theorem persistCommit_ok {value : CommitWrite} (h : persistCommit db value = .ok next) :
    (value.accepted = false ∧
      insertTransition db (value.identity.row .failed value.dbNow) = .ok next) ∨
    (value.accepted = true ∧ ∃ authorizations budgets,
      Activatable { db with authorizations := authorizations, budgets := budgets } value ∧
      insertTransition { db with
        authorizations := authorizations
        budgets := budgets
        source := value.activated } (activeRow value) = .ok next) := by
  rw [persistCommit] at h
  by_cases hrefused : value.accepted = false
  · rw [if_pos hrefused] at h
    exact .inl ⟨hrefused, h⟩
  · rw [if_neg hrefused] at h
    obtain ⟨first, hfirst, h⟩ := bind_eq_ok.mp h
    obtain ⟨second, hsecond, h⟩ := bind_eq_ok.mp h
    obtain ⟨third, hthird, h⟩ := bind_eq_ok.mp h
    obtain ⟨authorizations, rfl⟩ := insertAuthorization_ok hfirst
    obtain ⟨budgets, rfl⟩ := insertBudget_ok hsecond
    obtain ⟨_, hactivatable, rfl⟩ := activateSource_ok hthird
    exact .inr ⟨Bool.eq_true_of_not_eq_false hrefused, authorizations, budgets, hactivatable, h⟩

theorem persistReprepare_ok {value : ReprepareWrite} (h : persistReprepare db value = .ok next) :
    ∃ mid, insertAttestation db value = .ok mid ∧
      insertTransition { mid with intents := rotateIntents value mid.intents }
        { value.identity.row .prepared value.dbNow with
          attestationId := some value.attestationId } = .ok next := by
  obtain ⟨mid, hinsert, h⟩ := bind_eq_ok.mp h
  obtain ⟨rotated, hrotate, h⟩ := bind_eq_ok.mp h
  obtain rfl := rotateIntent_ok hrotate
  exact ⟨mid, hinsert, h⟩

theorem persistRestore_ok {value : RestoreWrite} (h : persistRestore db value = .ok next) :
    ∃ mid, insertTransition { db with source := unlinked } value.deactivated = .ok mid ∧
      insertTransition mid value.restoreWriting = .ok next := bind_eq_ok.mp h

end Writes

end PredictionMarketMonitor.ActivationEffects
