import PredictionMarketMonitor.CollectionModels

set_option autoImplicit false

/-!
# Dispatch, lease heartbeat and stale transitions

The pure command transitions of `dispatch.py`, each with the exact condition
under which it is accepted. The times are a database clock's: with the longest delay
added they stay inside `datetime`.
-/
namespace PredictionMarketMonitor.Dispatch

open CanonicalJson CivilTime CollectionBase CollectionModels FallibleSteps Sha256

structure DispatchReservation where
  reservationNonce : String
  leaseToken : String
deriving DecidableEq

structure DispatchConfirmation where
  attempt : ℕ
  reservationNonce : String
  githubRunId : String
  githubRunAttempt : ℕ
deriving DecidableEq

structure ClaimCredentials where
  attempt : ℕ
  leaseToken : String
  reservationNonce : String
deriving DecidableEq

structure StaleCheck where
  dbNow : Instant
  completionReady : Bool
  retryJitterKey : Bytes

def retryDelaySeconds (key : Bytes) (commandId : UUID) (nextAttempt : ℕ) : Result ℤ :=
  let message := encodeText (commandId.str ++ ':' :: decimal nextAttempt)
  let value := ofBigEndian ((Digest.bytes (hmacSha256 key message)).take 8)
  if nextAttempt = 2 then .ok (30 + value % 16 : ℕ)
  else if nextAttempt = 3 then .ok (120 + value % 31 : ℕ)
  else .error (fail .invalidContract 422)

def reserveDispatch (command : CommandState) (reservation : DispatchReservation)
    (now : Instant) : Result CommandState := do
  require (command.availableAt ≤ now) (fail .commandNotAvailable 409)
  require (command.reservationNonceHash = none ∧ command.leaseHash = none)
    (fail .reservationActive 409)
  require (command.status = .queued ∨ command.status = .failedRetryable)
    (fail .invalidTransition 409)
  let nextAttempt := command.attempt + if command.status = .failedRetryable then 1 else 0
  require (nextAttempt ≤ maxCommandAttempts) (fail .retriesExhausted 409)
  return { command with
    status := .dispatchReserved
    attempt := nextAttempt
    reservationStartedAt := some now
    reservationNonceHash := some (hashToken reservation.reservationNonce)
    leaseHash := some (hashToken reservation.leaseToken) }

/-- Record acceptance of the dispatch for the matching reservation only. -/
def confirmDispatch (command : CommandState) (confirmation : DispatchConfirmation)
    (now : Instant) : Result CommandState := do
  require (command.status = .dispatchReserved ∧ command.attempt = confirmation.attempt ∧
    tokenMatches confirmation.reservationNonce command.reservationNonceHash)
    (fail .leaseOrAttemptMismatch 409)
  require (confirmation.githubRunId ≠ "" ∧ 1 ≤ confirmation.githubRunAttempt)
    (fail .invalidContract 422)
  return { command with
    status := .dispatched
    dispatchedAt := some now
    githubRunId := some confirmation.githubRunId
    githubRunAttempt := some confirmation.githubRunAttempt }

def ProofsMatch (command : CommandState) (credentials : ClaimCredentials) : Prop :=
  command.attempt = credentials.attempt ∧
    tokenMatches credentials.leaseToken command.leaseHash ∧
    tokenMatches credentials.reservationNonce command.reservationNonceHash

instance (command : CommandState) (credentials : ClaimCredentials) :
    Decidable (ProofsMatch command credentials) :=
  inferInstanceAs (Decidable (_ ∧ _))

/-- Claim a reserved or confirmed dispatch; a repeated claim changes nothing. -/
def claimCommand (command : CommandState) (credentials : ClaimCredentials) (now : Instant) :
    Result CommandState :=
  if command.status = .dispatchReserved ∨ command.status = .dispatched then do
    require (ProofsMatch command credentials) (fail .leaseOrAttemptMismatch 409)
    return { command with
      status := .running
      claimedAt := some now
      heartbeatAt := some now }
  else if command.status = .running then do
    require (ProofsMatch command credentials) (fail .leaseOrAttemptMismatch 409)
    return command
  else .error (fail .invalidTransition 409)

def heartbeatCommand (command : CommandState) (credentials : ClaimCredentials) (now : Instant) :
    Result CommandState := do
  require (command.status = .running ∧ command.attempt = credentials.attempt ∧
    tokenMatches credentials.leaseToken command.leaseHash) (fail .leaseOrAttemptMismatch 409)
  return { command with heartbeatAt := some now }

def clearReservation (command : CommandState) : CommandState :=
  { command with
    reservationStartedAt := none
    reservationNonceHash := none
    dispatchedAt := none
    claimedAt := none
    heartbeatAt := none
    leaseHash := none
    githubRunId := none
    githubRunAttempt := none }

/-- Exhausted work is terminal; anything else becomes due after its delay. -/
def releaseAbandoned (command : CommandState) (now : Instant) (retryJitterKey : Bytes) :
    Result CommandState :=
  if maxCommandAttempts ≤ command.attempt then
    .ok { clearReservation command with status := .failedTerminal, availableAt := now }
  else do
    let delay ← retryDelaySeconds retryJitterKey command.id (command.attempt + 1)
    return { clearReservation command with
      status := .failedRetryable
      availableAt := now + seconds delay }

/-- More than `limit` seconds have passed since `anchor`. -/
def Elapsed (now : Instant) (limit : ℤ) (anchor : Option Instant) : Prop :=
  ∃ t ∈ anchor, seconds limit < now - t

instance (now : Instant) (limit : ℤ) (anchor : Option Instant) :
    Decidable (Elapsed now limit anchor) :=
  inferInstanceAs (Decidable (∃ t ∈ anchor, _))

def reconcileReservation (command : CommandState) (now : Instant) (retryJitterKey : Bytes) :
    Result CommandState :=
  if Elapsed now reservationStaleSeconds command.reservationStartedAt then
    releaseAbandoned command now retryJitterKey
  else .ok command

/-- The database time a running or dispatched command is aged from. -/
def staleAnchor (command : CommandState) (completionReady : Bool) : Option Instant :=
  if command.status = .dispatched then command.dispatchedAt
  else if command.status = .running ∧ completionReady = false then
    command.heartbeatAt.or command.claimedAt
  else none

def markStale (command : CommandState) (check : StaleCheck) : Result CommandState :=
  if command.status = .dispatchReserved then
    reconcileReservation command check.dbNow check.retryJitterKey
  else if command.status = .staleAbandoned then
    releaseAbandoned command check.dbNow check.retryJitterKey
  else if Elapsed check.dbNow executionStaleSeconds
      (staleAnchor command check.completionReady) then
    .ok { command with status := .staleAbandoned }
  else .ok command

section Specifications

theorem reserveDispatch_eq_ok {command next : CommandState} {reservation : DispatchReservation}
    {now : Instant} : reserveDispatch command reservation now = .ok next ↔
      command.availableAt ≤ now ∧
      (command.reservationNonceHash = none ∧ command.leaseHash = none) ∧
      (command.status = .queued ∨ command.status = .failedRetryable) ∧
      command.attempt + (if command.status = .failedRetryable then 1 else 0) ≤
        maxCommandAttempts ∧
      next = { command with
        status := .dispatchReserved
        attempt := command.attempt + if command.status = .failedRetryable then 1 else 0
        reservationStartedAt := some now
        reservationNonceHash := some (hashToken reservation.reservationNonce)
        leaseHash := some (hashToken reservation.leaseToken) } := by
  rw [reserveDispatch, require_bind, require_bind, require_bind, require_bind]
  exact and_congr_right fun _ => and_congr_right fun _ => and_congr_right fun _ =>
    and_congr_right fun _ => ⟨fun h => (Except.ok.inj h).symm, fun h => h ▸ rfl⟩

theorem confirmDispatch_eq_ok {command next : CommandState} {confirmation : DispatchConfirmation}
    {now : Instant} (h : confirmDispatch command confirmation now = .ok next) :
    command.status = .dispatchReserved ∧
      next = { command with
        status := .dispatched
        dispatchedAt := some now
        githubRunId := some confirmation.githubRunId
        githubRunAttempt := some confirmation.githubRunAttempt } := by
  obtain ⟨hvalid, h⟩ := require_bind.mp h
  obtain ⟨_, h⟩ := require_bind.mp h
  exact ⟨hvalid.1, (Except.ok.inj h).symm⟩

theorem claimCommand_cases {command next : CommandState} {credentials : ClaimCredentials}
    {now : Instant} (h : claimCommand command credentials now = .ok next) :
    ProofsMatch command credentials ∧
      (((command.status = .dispatchReserved ∨ command.status = .dispatched) ∧
        next = { command with
          status := .running
          claimedAt := some now
          heartbeatAt := some now }) ∨
      (command.status = .running ∧ next = command)) := by
  unfold claimCommand at h
  split at h
  · rename_i hreserved
    obtain ⟨hproofs, h⟩ := require_bind.mp h
    exact ⟨hproofs, .inl ⟨hreserved, (Except.ok.inj h).symm⟩⟩
  · split at h
    · rename_i hrunning
      obtain ⟨hproofs, h⟩ := require_bind.mp h
      exact ⟨hproofs, .inr ⟨hrunning, (Except.ok.inj h).symm⟩⟩
    · cases h

theorem claimCommand_of_reserved {command : CommandState} {credentials : ClaimCredentials}
    (now : Instant) (hs : command.status = .dispatchReserved ∨ command.status = .dispatched)
    (hproofs : ProofsMatch command credentials) :
    claimCommand command credentials now = .ok { command with
      status := .running
      claimedAt := some now
      heartbeatAt := some now } := by
  rw [claimCommand, if_pos hs, require_of hproofs]
  rfl

theorem heartbeatCommand_eq_ok {command next : CommandState} {credentials : ClaimCredentials}
    {now : Instant} (h : heartbeatCommand command credentials now = .ok next) :
    (command.status = .running ∧ command.attempt = credentials.attempt ∧
      tokenMatches credentials.leaseToken command.leaseHash) ∧
      next = { command with heartbeatAt := some now } := by
  obtain ⟨hvalid, h⟩ := require_bind.mp h
  exact ⟨hvalid, (Except.ok.inj h).symm⟩

theorem retryDelaySeconds_ok {key : Bytes} {commandId : UUID} {nextAttempt : ℕ}
    (h : 2 ≤ nextAttempt) (hmax : nextAttempt ≤ maxCommandAttempts) :
    ∃ delay, retryDelaySeconds key commandId nextAttempt = .ok delay := by
  unfold retryDelaySeconds
  unfold maxCommandAttempts at hmax
  obtain rfl | rfl : nextAttempt = 2 ∨ nextAttempt = 3 := by omega
  · exact ⟨_, rfl⟩
  · exact ⟨_, rfl⟩

theorem retryDelaySeconds_le {key : Bytes} {commandId : UUID} {nextAttempt : ℕ} {delay : ℤ}
    (h : retryDelaySeconds key commandId nextAttempt = .ok delay) : delay ≤ 150 := by
  unfold retryDelaySeconds at h
  dsimp only at h
  split at h
  · obtain rfl := Except.ok.inj h
    omega
  · split at h
    · obtain rfl := Except.ok.inj h
      omega
    · cases h

theorem releaseAbandoned_eq_ok {command next : CommandState} {now : Instant} {key : Bytes}
    (h : releaseAbandoned command now key = .ok next) :
    ∃ status availableAt, next = { clearReservation command with
        status := status, availableAt := availableAt } ∧
      ((maxCommandAttempts ≤ command.attempt ∧ status = .failedTerminal) ∨
        (command.attempt < maxCommandAttempts ∧ status = .failedRetryable)) := by
  unfold releaseAbandoned at h
  split at h
  · rename_i hmax
    exact ⟨.failedTerminal, now, (Except.ok.inj h).symm, .inl ⟨hmax, rfl⟩⟩
  · rename_i hmax
    obtain ⟨delay, _, h⟩ := bind_eq_ok.mp h
    exact ⟨.failedRetryable, _, (Except.ok.inj h).symm, .inr ⟨Nat.lt_of_not_le hmax, rfl⟩⟩

theorem releaseAbandoned_ok {command : CommandState} (now : Instant) (key : Bytes)
    (h : 1 ≤ command.attempt) : ∃ next, releaseAbandoned command now key = .ok next := by
  unfold releaseAbandoned
  split
  · exact ⟨_, rfl⟩
  · rename_i hmax
    obtain ⟨delay, hdelay⟩ := @retryDelaySeconds_ok key command.id
      (command.attempt + 1) (by omega) (by omega)
    exact ⟨_, by rw [hdelay, ok_bind]; rfl⟩

/-- Marking stale keeps a command, abandons it, or releases a reservation. -/
theorem markStale_cases {command next : CommandState} {check : StaleCheck}
    (h : markStale command check = .ok next) :
    next = command ∨
      ((command.status = .dispatched ∨ command.status = .running) ∧
        next = { command with status := .staleAbandoned }) ∨
      ((command.status = .dispatchReserved ∨ command.status = .staleAbandoned) ∧
        releaseAbandoned command check.dbNow check.retryJitterKey = .ok next) := by
  unfold markStale at h
  split at h
  · rename_i hreserved
    unfold reconcileReservation at h
    split at h
    · exact .inr (.inr ⟨.inl hreserved, h⟩)
    · exact .inl (Except.ok.inj h).symm
  · split at h
    · rename_i habandoned
      exact .inr (.inr ⟨.inr habandoned, h⟩)
    · split at h
      · rename_i helapsed
        refine .inr (.inl ⟨?_, (Except.ok.inj h).symm⟩)
        obtain ⟨t, ht, _⟩ := helapsed
        unfold staleAnchor at ht
        split at ht
        · exact .inl ‹_›
        · split at ht
          · exact .inr ‹_ ∧ _›.1
          · cases ht
      · exact .inl (Except.ok.inj h).symm

end Specifications

end PredictionMarketMonitor.Dispatch
