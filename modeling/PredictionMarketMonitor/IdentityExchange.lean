import PredictionMarketMonitor.CollectionBase
import PredictionMarketMonitor.ExpiringKeys
import PredictionMarketMonitor.KeyedTable

set_option autoImplicit false

/-!
# One exchange for one identity proof

`app/services/identity`: the GitHub claim policy, the worker bootstrap verifier
and the nonce table that both exchanges consume. The application and the database
read one clock, a call later and later: as it validates its proof, as its transaction
starts, and as it meets the row of its nonce.
-/
namespace PredictionMarketMonitor.IdentityExchange

open CanonicalJson CivilTime FallibleSteps KeyedTable Sha256
open CollectionBase (FitsText)
open ExpiringKeys (Holding KeyLocal Meets Prompt answers answers_filter exists_of_answer
  length_filter_le_one taken_apart)

inductive PrincipalKind
  | bff | githubCollector | githubVerifier | windowsWorker | adminSession
deriving DecidableEq

inductive Scope
  | bffAuth | bffRead | adminCommand | collectorMaterialize | collectorReserve | collectorClaim
  | collectorPageCommit | collectorHeartbeat | collectorComplete | verifyRead | verifyWrite
  | releaseActivationEvidenceVerify | workerLease | workerHeartbeat | workerAck
deriving DecidableEq

inductive IdentityErrorCode
  | invalidOidcClaims | replayedNonce | staleRequest | invalidCredential | rateLimited
  | invalidScope
deriving DecidableEq

/-- Why an exchange raises: a typed identity error, a naive clock value, a date
    out of range, a text the database cannot hold, or a row it refuses. -/
inductive Refusal
  | identity (code : IdentityErrorCode)
  | typeError
  | outOfRange
  | dataError
  | integrity
deriving DecidableEq

def tokenSkewSeconds : ℤ := 30
def workerRequestMaxAgeSeconds : ℤ := 120
def bffNonceRetentionSeconds : ℤ := 600

/-- Values of `datetime` lie in the years 1 to 9999. -/
def datetimeOf (t : Instant) : Except Refusal Instant := do
  require (seconds (-62135596800) ≤ t ∧ t < seconds 253402300800) .outOfRange
  return t

/-- `int(value.timestamp())`. -/
def timestampSeconds (t : Instant) : ℤ := Int.tdiv t 1000000

inductive NoncePurpose
  | githubExchange | workerExchange | bffExchange | sessionRotation
deriving DecidableEq

def purposes (nonceNamespace : String) : Option NoncePurpose :=
  if nonceNamespace = "github-oidc" then some .githubExchange
  else if nonceNamespace = "worker-bootstrap" then some .workerExchange
  else if nonceNamespace = "bff" then some .bffExchange
  else none

structure OneUseNonce where
  purpose : NoncePurpose
  nonceHash : Digest
  externalIdentity : Text
  expiresAt : Instant
  usedAt : Option Instant
  createdAt : Instant
deriving DecidableEq

def OneUseNonce.slot (row : OneUseNonce) : NoncePurpose × Digest := (row.purpose, row.nonceHash)

/-- The check constraint `nonce_window_valid`. -/
def OneUseNonce.WindowValid (row : OneUseNonce) : Prop := row.createdAt < row.expiresAt

instance (row : OneUseNonce) : Decidable row.WindowValid := inferInstanceAs (Decidable (_ < _))

/-- Rows are distinct by `uq_nonce_purpose_hash`. -/
abbrev OneUseNonces := Table OneUseNonce.slot

def nonceDigest (nonceNamespace : String) (key : Text) : Digest :=
  sha256 (encodeText (nonceNamespace.toList ++ Char.ofNat 0 :: key))

/-- `on_conflict_do_update`. -/
def OneUseNonce.reuse (row proposed : OneUseNonce) : OneUseNonce :=
  { row with
    externalIdentity := proposed.externalIdentity
    expiresAt := proposed.expiresAt
    usedAt := proposed.usedAt }

theorem OneUseNonce.slot_reuse (row proposed : OneUseNonce) :
    (row.reuse proposed).slot = row.slot := rfl

/-- Insert the proposed row, or reuse the row of its slot once that has expired.
    The proposed row is checked before the conflict is looked for. -/
def upsertNonce (nonces : OneUseNonces) (proposed : OneUseNonce) (clock : Instant) :
    Except Refusal (Bool × OneUseNonces) := do
  require proposed.WindowValid .integrity
  match nonces.find? proposed.slot with
  | none =>
    let inserted ← present (nonces.insert? proposed) .integrity
    return (true, inserted)
  | some row => do
    if row.expiresAt ≤ clock then
      require (row.reuse proposed).WindowValid .integrity
      return (true, nonces.update proposed.slot (fun row => row.reuse proposed)
        fun row => row.slot_reuse proposed)
    else return (false, nonces)

/-- What one transaction reads of the database clock: `now()` is its start, and
    `clock_timestamp()` goes on while it waits for the row. -/
structure TransactionTime where
  startedAt : Instant
  clock : Instant
deriving DecidableEq

/-- The server default of `created_at` is `now()`. -/
def proposedNonce (purpose : NoncePurpose) (nonceNamespace : String) (key : Text)
    (retainUntil : Instant) (tx : TransactionTime) : OneUseNonce where
  purpose := purpose
  nonceHash := nonceDigest nonceNamespace key
  externalIdentity := key.take 300
  expiresAt := retainUntil
  usedAt := some tx.clock
  createdAt := tx.startedAt

def consumeOnce (nonces : OneUseNonces) (nonceNamespace : String) (key : Text)
    (retainUntil : Instant) (tx : TransactionTime) : Except Refusal (Bool × OneUseNonces) :=
  match purposes nonceNamespace with
  | none => return (false, nonces)
  | some purpose => do
    require (FitsText (key.take 300)) .dataError
    upsertNonce nonces (proposedNonce purpose nonceNamespace key retainUntil tx) tx.clock

/-- Consume the key of an exchange, which is refused when it is not fresh. -/
def consumeFresh (nonces : OneUseNonces) (nonceNamespace : String) (key : Text)
    (retainUntil : Instant) (tx : TransactionTime) : Except Refusal OneUseNonces := do
  let (consumed, rest) ← consumeOnce nonces nonceNamespace key retainUntil tx
  require (consumed = true) (.identity .replayedNonce)
  return rest

structure GitHubOIDCClaims where
  issuer : Text
  audience : Text
  subject : Text
  repository : Text
  repositoryId : Text
  repositoryOwnerId : Text
  workflowRef : Text
  gitRef : Text
  headSha : Text
  environment : Option Text
  runId : Text
  runAttempt : Text
  jwtId : Text
  issuedAt : ℤ
  notBefore : ℤ
  expiresAt : ℤ
deriving DecidableEq

structure GitHubWorkflowRule where
  workflowRef : Text
  gitRef : Text
  environment : Text
  scopes : Finset Scope
deriving DecidableEq

structure GitHubAuthorization where
  principalId : Text
  kind : PrincipalKind
  scopes : Finset Scope
  replayKey : Text
  retainUntil : Instant
deriving DecidableEq

structure GitHubClaimPolicy where
  repository : Text
  workflows : List GitHubWorkflowRule

def githubOidcIssuer : Text := "https://token.actions.githubusercontent.com".toList
def githubOidcAudience : Text := "monitor-control".toList

/-- `str.isdecimal`, for the decimal characters of the interpreter's Unicode tables. -/
def isdecimal (decimalChar : Char → Bool) (s : Text) : Prop :=
  s ≠ [] ∧ s.all decimalChar = true

instance (decimalChar : Char → Bool) (s : Text) : Decidable (isdecimal decimalChar s) :=
  inferInstanceAs (Decidable (_ ∧ _))

def GitHubOIDCClaims.TimeValid (claims : GitHubOIDCClaims) (nowSeconds : ℤ) : Prop :=
  claims.issuedAt ≤ nowSeconds + tokenSkewSeconds ∧
    claims.notBefore ≤ nowSeconds + tokenSkewSeconds ∧
    claims.expiresAt ≥ nowSeconds - tokenSkewSeconds ∧ claims.expiresAt > claims.notBefore

instance (claims : GitHubOIDCClaims) (nowSeconds : ℤ) : Decidable (claims.TimeValid nowSeconds) :=
  inferInstanceAs (Decidable (_ ∧ _))

def GitHubWorkflowRule.Matches (rule : GitHubWorkflowRule) (claims : GitHubOIDCClaims) : Prop :=
  rule.workflowRef = claims.workflowRef ∧ rule.gitRef = claims.gitRef ∧
    some rule.environment = claims.environment

instance (rule : GitHubWorkflowRule) (claims : GitHubOIDCClaims) :
    Decidable (rule.Matches claims) := inferInstanceAs (Decidable (_ ∧ _))

def GitHubOIDCClaims.replayKey (claims : GitHubOIDCClaims) : Text :=
  claims.runId ++ '|' :: claims.workflowRef ++ '|' :: claims.runAttempt ++ '|' :: claims.jwtId

def validateVerifiedClaims (decimalChar : Char → Bool) (policy : GitHubClaimPolicy)
    (claims : GitHubOIDCClaims) (now : Instant) : Except Refusal GitHubAuthorization := do
  let rule ← present (policy.workflows.find? (fun rule => rule.Matches claims))
    (.identity .invalidOidcClaims)
  require (claims.issuer = githubOidcIssuer ∧ claims.audience = githubOidcAudience ∧
    claims.repository = policy.repository ∧ isdecimal decimalChar claims.runId ∧
    isdecimal decimalChar claims.runAttempt ∧ claims.TimeValid (timestampSeconds now))
    (.identity .invalidOidcClaims)
  let retainUntil ← datetimeOf (seconds claims.expiresAt)
  return {
    principalId := "github:".toList ++ claims.repository ++ ':' :: claims.runId
    kind := if Scope.verifyRead ∈ rule.scopes ∨ Scope.verifyWrite ∈ rule.scopes
      then .githubVerifier else .githubCollector
    scopes := rule.scopes
    replayKey := claims.replayKey
    retainUntil := retainUntil }

def authorizeGitHub (decimalChar : Char → Bool) (policy : GitHubClaimPolicy)
    (claims : GitHubOIDCClaims) (now : Instant) (tx : TransactionTime) (nonces : OneUseNonces) :
    Except Refusal (GitHubAuthorization × OneUseNonces) := do
  let authorization ← validateVerifiedClaims decimalChar policy claims now
  let rest ← consumeFresh nonces "github-oidc" authorization.replayKey authorization.retainUntil tx
  return (authorization, rest)

structure WorkerBootstrapRequest where
  workerId : Text
  capabilityProofId : Text
  timestamp : Datetime
  nonce : Text
  credentialVersion : Text
  signature : Digest
deriving DecidableEq

def WorkerBootstrapRequest.signingPayload (request : WorkerBootstrapRequest) : Bytes :=
  encodeText ("worker-bootstrap-v1".toList ++ '\n' :: request.workerId ++
    '\n' :: request.capabilityProofId ++
    '\n' :: decimal (timestampSeconds request.timestamp.instant) ++
    '\n' :: request.nonce ++ '\n' :: request.credentialVersion)

structure VerifiedWorkerBootstrap where
  principalId : Text
  credentialVersion : Text
  scopes : Finset Scope
deriving DecidableEq

/-- `WorkerBootstrapVerifier.verify` under an allowlist of versions and their secrets. -/
def verifyWorker (secrets : Text → Option Bytes) (request : WorkerBootstrapRequest)
    (now : Instant) : Except Refusal VerifiedWorkerBootstrap := do
  require request.timestamp.Aware .typeError
  let age := now - request.timestamp.instant
  require (¬ (age > seconds workerRequestMaxAgeSeconds ∨ age < -seconds tokenSkewSeconds))
    (.identity .staleRequest)
  let secret ← present (secrets request.credentialVersion) (.identity .invalidCredential)
  require (hmacSha256 secret request.signingPayload = request.signature)
    (.identity .invalidCredential)
  return {
    principalId := "worker:".toList ++ request.workerId
    credentialVersion := request.credentialVersion
    scopes := {.workerLease, .workerHeartbeat, .workerAck} }

def workerRetainUntil (now : Instant) : Instant := now + seconds (10 * 60)

/-- `approved` is what the approval repository answers at this call. -/
def authorizeWorker (secrets : Text → Option Bytes) (approved : Bool)
    (request : WorkerBootstrapRequest) (now : Instant) (tx : TransactionTime)
    (nonces : OneUseNonces) : Except Refusal (VerifiedWorkerBootstrap × OneUseNonces) := do
  let verified ← verifyWorker secrets request now
  require (approved = true) (.identity .invalidCredential)
  let retainUntil ← datetimeOf (workerRetainUntil now)
  let rest ← consumeFresh nonces "worker-bootstrap" request.nonce retainUntil tx
  return (verified, rest)

/-- `checked` is the outcome of the rate, scope and credential checks, which do
    not read the nonce table. -/
def authorizeBff (checked : Except Refusal Unit) (requestNonce : Text) (now : Instant)
    (tx : TransactionTime) (nonces : OneUseNonces) : Except Refusal OneUseNonces := do
  checked
  let retained ← datetimeOf (now + seconds bffNonceRetentionSeconds)
  consumeFresh nonces "bff" requestNonce retained tx

inductive Exchange
  | github (policy : GitHubClaimPolicy) (claims : GitHubOIDCClaims)
  | worker (secrets : Text → Option Bytes) (approved : Bool) (request : WorkerBootstrapRequest)
  | bff (checked : Except Refusal Unit) (requestNonce : Text)

namespace Exchange

def nonceKey : Exchange → String × Text
  | .github _ claims => ("github-oidc", claims.replayKey)
  | .worker _ _ request => ("worker-bootstrap", request.nonce)
  | .bff _ requestNonce => ("bff", requestNonce)

def purpose : Exchange → NoncePurpose
  | .github _ _ => .githubExchange
  | .worker _ _ _ => .workerExchange
  | .bff _ _ => .bffExchange

def slot (e : Exchange) : NoncePurpose × Digest :=
  (e.purpose, nonceDigest e.nonceKey.1 e.nonceKey.2)

def retainUntil (now : Instant) : Exchange → Instant
  | .github _ claims => seconds claims.expiresAt
  | .worker _ _ _ => workerRetainUntil now
  | .bff _ _ => now + seconds bffNonceRetentionSeconds

def claims? : Exchange → Option GitHubOIDCClaims
  | .github _ claims => some claims
  | _ => none

def request? : Exchange → Option WorkerBootstrapRequest
  | .worker _ _ request => some request
  | _ => none

theorem purposes_namespace (e : Exchange) : purposes e.nonceKey.1 = some e.purpose := by
  cases e <;> rfl

end Exchange

/-- A call validates its proof before its transaction starts, which is before the
    transaction meets the row. -/
structure Call where
  exchange : Exchange
  now : Instant
  transaction : TransactionTime
  inOrder : now ≤ transaction.startedAt ∧ transaction.startedAt ≤ transaction.clock

inductive Grant
  | github (authorization : GitHubAuthorization)
  | worker (verified : VerifiedWorkerBootstrap)
  | bff
deriving DecidableEq

def settle (nonces : OneUseNonces) :
    Except Refusal (Grant × OneUseNonces) → OneUseNonces × Except Refusal Grant
  | .ok (grant, rest) => (rest, .ok grant)
  | .error e => (nonces, .error e)

def serve (decimalChar : Char → Bool) (nonces : OneUseNonces) (call : Call) :
    OneUseNonces × Except Refusal Grant :=
  settle nonces (match call.exchange with
    | .github policy claims => do
      let (authorization, rest) ← authorizeGitHub decimalChar policy claims call.now
        call.transaction nonces
      return (.github authorization, rest)
    | .worker secrets approved request => do
      let (verified, rest) ← authorizeWorker secrets approved request call.now
        call.transaction nonces
      return (.worker verified, rest)
    | .bff checked requestNonce => do
      let rest ← authorizeBff checked requestNonce call.now call.transaction nonces
      return (.bff, rest))

section Slots

def upsertRow (stored : Option OneUseNonce) (proposed : OneUseNonce) (clock : Instant) :
    Except Refusal (Bool × OneUseNonce) := do
  require proposed.WindowValid .integrity
  match stored with
  | none => return (true, proposed)
  | some row => do
    if row.expiresAt ≤ clock then
      require (row.reuse proposed).WindowValid .integrity
      return (true, row.reuse proposed)
    else return (false, row)

theorem upsertNonce_row (nonces : OneUseNonces) (proposed : OneUseNonce) (clock : Instant) :
    (upsertNonce nonces proposed clock).map (fun p => (p.1, p.2.find? proposed.slot)) =
      (upsertRow (nonces.find? proposed.slot) proposed clock).map (fun q => (q.1, some q.2)) := by
  rw [upsertNonce, upsertRow.eq_def]
  by_cases hwindow : proposed.WindowValid
  · rw [require_of hwindow, ok_bind, ok_bind]
    cases hfind : nonces.find? proposed.slot with
    | none =>
      obtain ⟨inserted, hinserted⟩ := Table.exists_insert hfind
      have hrow : inserted.find? proposed.slot = some proposed := by
        rw [Table.find?_insert hinserted, if_pos rfl]
      simp only [hinserted, present, ok_bind]
      exact congrArg (fun row => Except.ok (true, row)) hrow
    | some row =>
      by_cases hexpired : row.expiresAt ≤ clock
      · simp only [if_pos hexpired]
        by_cases hreuse : (row.reuse proposed).WindowValid
        · have hrow : (nonces.update proposed.slot (fun row => row.reuse proposed)
              fun row => row.slot_reuse proposed).find? proposed.slot =
                some (row.reuse proposed) := by
            rw [Table.find?_update_self, hfind]
            rfl
          rw [require_of hreuse, ok_bind, ok_bind]
          exact congrArg (fun row => Except.ok (true, row)) hrow
        · rw [require_of_not hreuse]
          rfl
      · simp only [if_neg hexpired]
        exact congrArg (fun row => Except.ok (false, row)) hfind
  · rw [require_of_not hwindow]
    rfl

theorem upsertNonce_frame {nonces : OneUseNonces} {proposed : OneUseNonce} {clock : Instant}
    {p : Bool × OneUseNonces} (h : upsertNonce nonces proposed clock = .ok p)
    {j : NoncePurpose × Digest} (hj : j ≠ proposed.slot) : p.2.find? j = nonces.find? j := by
  obtain ⟨_, h⟩ := require_bind.mp h
  cases hfind : nonces.find? proposed.slot with
  | none =>
    simp only [hfind] at h
    obtain ⟨inserted, hinserted, h⟩ := bind_eq_ok.mp h
    obtain rfl := Except.ok.inj h
    rw [Table.find?_insert (present_eq_ok.mp hinserted), if_neg hj.symm]
  | some row =>
    simp only [hfind] at h
    by_cases hexpired : row.expiresAt ≤ clock
    · rw [if_pos hexpired] at h
      obtain ⟨_, h⟩ := require_bind.mp h
      obtain rfl := Except.ok.inj h
      rw [Table.find?_update_ne hj]
    · rw [if_neg hexpired] at h
      obtain rfl := Except.ok.inj h
      rfl

theorem upsertRow_taken {stored : Option OneUseNonce} {proposed : OneUseNonce} {clock : Instant}
    {row : OneUseNonce} (h : upsertRow stored proposed clock = .ok (true, row)) :
    proposed.createdAt < proposed.expiresAt ∧ (∀ old ∈ stored, old.expiresAt ≤ clock) ∧
      row.expiresAt = proposed.expiresAt := by
  obtain ⟨hwindow, h⟩ := require_bind.mp h
  cases stored with
  | none =>
    obtain ⟨_, rfl⟩ := Prod.mk.inj (Except.ok.inj h)
    exact ⟨hwindow, by simp, rfl⟩
  | some old =>
    by_cases hexpired : old.expiresAt ≤ clock
    · simp only [if_pos hexpired] at h
      obtain ⟨_, h⟩ := require_bind.mp h
      obtain ⟨_, rfl⟩ := Prod.mk.inj (Except.ok.inj h)
      exact ⟨hwindow, by simpa using hexpired, rfl⟩
    · simp only [if_neg hexpired] at h
      exact absurd (Prod.mk.inj (Except.ok.inj h)).1 (by decide)

def consumeRow (stored : Option OneUseNonce) (purpose : NoncePurpose) (nonceNamespace : String)
    (key : Text) (retainUntil : Instant) (tx : TransactionTime) : Except Refusal OneUseNonce := do
  require (FitsText (key.take 300)) .dataError
  let (consumed, row) ← upsertRow stored
    (proposedNonce purpose nonceNamespace key retainUntil tx) tx.clock
  require (consumed = true) (.identity .replayedNonce)
  return row

variable {nonces : OneUseNonces} {purpose : NoncePurpose} {nonceNamespace : String} {key : Text}
  {retainUntil : Instant} {tx : TransactionTime}

theorem consumeFresh_row (hpurpose : purposes nonceNamespace = some purpose) :
    (consumeFresh nonces nonceNamespace key retainUntil tx).map
        (fun rest => rest.find? (purpose, nonceDigest nonceNamespace key)) =
      (consumeRow (nonces.find? (purpose, nonceDigest nonceNamespace key)) purpose nonceNamespace
        key retainUntil tx).map some := by
  have hrow := upsertNonce_row nonces
    (proposedNonce purpose nonceNamespace key retainUntil tx) tx.clock
  have hslot : (proposedNonce purpose nonceNamespace key retainUntil tx).slot =
      (purpose, nonceDigest nonceNamespace key) := rfl
  rw [hslot] at hrow
  rw [consumeFresh, consumeOnce, consumeRow]
  simp only [hpurpose]
  by_cases htext : FitsText (key.take 300)
  · rw [require_of htext, ok_bind, ok_bind]
    generalize upsertRow _ _ _ = q at hrow ⊢
    cases hupsert : upsertNonce nonces
        (proposedNonce purpose nonceNamespace key retainUntil tx) tx.clock with
    | error e =>
      rw [hupsert] at hrow
      cases q with
      | error e' =>
        rw [Except.error.inj hrow]
        rfl
      | ok r => cases hrow
    | ok p =>
      rw [hupsert] at hrow
      cases q with
      | error e => cases hrow
      | ok r =>
        obtain ⟨hconsumed, hfound⟩ := Prod.mk.inj (Except.ok.inj hrow)
        simp only [ok_bind, hconsumed]
        by_cases htrue : r.1 = true
        · rw [require_of htrue]
          exact congrArg Except.ok hfound
        · rw [require_of_not htrue]
          rfl
  · rw [require_of_not htext]
    rfl

theorem consumeFresh_frame (hpurpose : purposes nonceNamespace = some purpose)
    {rest : OneUseNonces} (h : consumeFresh nonces nonceNamespace key retainUntil tx = .ok rest)
    {j : NoncePurpose × Digest} (hj : j ≠ (purpose, nonceDigest nonceNamespace key)) :
    rest.find? j = nonces.find? j := by
  obtain ⟨p, hp, h⟩ := bind_eq_ok.mp h
  obtain ⟨_, h⟩ := require_bind.mp h
  obtain rfl := Except.ok.inj h
  rw [consumeOnce] at hp
  simp only [hpurpose] at hp
  exact upsertNonce_frame (require_bind.mp hp).2 hj

theorem consumeFresh_taken (hpurpose : purposes nonceNamespace = some purpose)
    {rest : OneUseNonces}
    (h : consumeFresh nonces nonceNamespace key retainUntil tx = .ok rest) :
    (∀ row ∈ nonces.find? (purpose, nonceDigest nonceNamespace key), row.expiresAt ≤ tx.clock) ∧
      tx.startedAt < retainUntil ∧
      ∃ row, rest.find? (purpose, nonceDigest nonceNamespace key) = some row ∧
        row.expiresAt = retainUntil := by
  have hrow := @consumeFresh_row nonces purpose nonceNamespace key retainUntil tx hpurpose
  rw [h] at hrow
  cases hconsume : consumeRow (nonces.find? (purpose, nonceDigest nonceNamespace key)) purpose
      nonceNamespace key retainUntil tx with
  | error e =>
    rw [hconsume] at hrow
    cases hrow
  | ok row =>
    rw [hconsume] at hrow
    obtain ⟨_, hconsume⟩ := require_bind.mp hconsume
    obtain ⟨q, hq, hconsume⟩ := bind_eq_ok.mp hconsume
    obtain ⟨htrue, hconsume⟩ := require_bind.mp hconsume
    obtain rfl := Except.ok.inj hconsume
    obtain ⟨consumed, row⟩ := q
    obtain rfl : consumed = true := htrue
    obtain ⟨hahead, hfree, hexpires⟩ := upsertRow_taken hq
    exact ⟨hfree, hahead, row, Except.ok.inj hrow, hexpires⟩

end Slots

section Exchanges
variable {decimalChar : Char → Bool}

/-- Everything an exchange checks before it consumes its key, with the
    authorization it would grant and the time it would retain the key until. -/
def Exchange.prepare (decimalChar : Char → Bool) (now : Instant) :
    Exchange → Except Refusal (Grant × Instant)
  | .github policy claims => do
    let authorization ← validateVerifiedClaims decimalChar policy claims now
    return (.github authorization, authorization.retainUntil)
  | .worker secrets approved request => do
    let verified ← verifyWorker secrets request now
    require (approved = true) (.identity .invalidCredential)
    let retainUntil ← datetimeOf (workerRetainUntil now)
    return (.worker verified, retainUntil)
  | .bff checked _ => do
    checked
    let retained ← datetimeOf (now + seconds bffNonceRetentionSeconds)
    return (.bff, retained)

theorem datetimeOf_eq_ok {t u : Instant} (h : datetimeOf t = .ok u) : u = t := by
  obtain ⟨_, h⟩ := require_bind.mp h
  exact (Except.ok.inj h).symm

theorem validateVerifiedClaims_eq_ok {policy : GitHubClaimPolicy} {claims : GitHubOIDCClaims}
    {now : Instant} {authorization : GitHubAuthorization}
    (h : validateVerifiedClaims decimalChar policy claims now = .ok authorization) :
    authorization.replayKey = claims.replayKey ∧
      authorization.retainUntil = seconds claims.expiresAt := by
  obtain ⟨rule, _, h⟩ := bind_eq_ok.mp h
  obtain ⟨_, h⟩ := require_bind.mp h
  obtain ⟨retainUntil, hretain, h⟩ := bind_eq_ok.mp h
  obtain rfl := Except.ok.inj h
  exact ⟨rfl, datetimeOf_eq_ok hretain⟩

theorem prepare_retains {e : Exchange} {now : Instant} {p : Grant × Instant}
    (h : e.prepare decimalChar now = .ok p) : p.2 = e.retainUntil now := by
  cases e with
  | github policy claims =>
    obtain ⟨authorization, hvalid, h⟩ := bind_eq_ok.mp h
    obtain rfl := Except.ok.inj h
    exact (validateVerifiedClaims_eq_ok hvalid).2
  | worker secrets approved request =>
    obtain ⟨verified, _, h⟩ := bind_eq_ok.mp h
    obtain ⟨_, h⟩ := require_bind.mp h
    obtain ⟨retainUntil, hretain, h⟩ := bind_eq_ok.mp h
    obtain rfl := Except.ok.inj h
    exact datetimeOf_eq_ok hretain
  | bff checked requestNonce =>
    obtain ⟨_, _, h⟩ := bind_eq_ok.mp h
    obtain ⟨retained, hretain, h⟩ := bind_eq_ok.mp h
    obtain rfl := Except.ok.inj h
    exact datetimeOf_eq_ok hretain

theorem serve_eq (nonces : OneUseNonces) (call : Call) :
    serve decimalChar nonces call = settle nonces (do
      let p ← call.exchange.prepare decimalChar call.now
      let rest ← consumeFresh nonces call.exchange.nonceKey.1 call.exchange.nonceKey.2 p.2
        call.transaction
      return (p.1, rest)) := by
  obtain ⟨e, now, tx, horder⟩ := call
  cases e with
  | github policy claims =>
    simp only [serve, authorizeGitHub, Exchange.prepare, bind_assoc, pure_bind, Exchange.nonceKey]
    cases hvalid : validateVerifiedClaims decimalChar policy claims now with
    | error e => simp only [error_bind]
    | ok authorization => simp only [ok_bind, (validateVerifiedClaims_eq_ok hvalid).1]
  | worker secrets approved request =>
    simp only [serve, authorizeWorker, Exchange.prepare, bind_assoc, pure_bind, Exchange.nonceKey]
  | bff checked requestNonce =>
    simp only [serve, authorizeBff, Exchange.prepare, bind_assoc, pure_bind, Exchange.nonceKey]

theorem serve_of_error {nonces : OneUseNonces} {call : Call} {e : Refusal}
    (h : call.exchange.prepare decimalChar call.now = .error e) :
    serve decimalChar nonces call = (nonces, .error e) := by
  rw [serve_eq, h]
  rfl

theorem serve_of_prepared {nonces : OneUseNonces} {call : Call} {p : Grant × Instant}
    (h : call.exchange.prepare decimalChar call.now = .ok p) :
    serve decimalChar nonces call = settle nonces ((consumeFresh nonces call.exchange.nonceKey.1
      call.exchange.nonceKey.2 (call.exchange.retainUntil call.now) call.transaction).map
        (fun rest => (p.1, rest))) := by
  rw [serve_eq, h, ok_bind, prepare_retains h]
  cases consumeFresh nonces call.exchange.nonceKey.1 call.exchange.nonceKey.2
    (call.exchange.retainUntil call.now) call.transaction <;> rfl

/-- A call that succeeds has consumed its key, and any other leaves the table alone. -/
theorem serve_cases (nonces : OneUseNonces) (call : Call) :
    ((serve decimalChar nonces call).1 = nonces ∧
        ¬ (serve decimalChar nonces call).2.isOk = true) ∨
      consumeFresh nonces call.exchange.nonceKey.1 call.exchange.nonceKey.2
        (call.exchange.retainUntil call.now) call.transaction = .ok (serve decimalChar nonces call).1 ∧
          (serve decimalChar nonces call).2.isOk = true := by
  cases hprepare : call.exchange.prepare decimalChar call.now with
  | error e =>
    rw [serve_of_error hprepare]
    exact .inl ⟨rfl, by simp [Except.isOk, Except.toBool]⟩
  | ok p =>
    rw [serve_of_prepared hprepare]
    cases hconsume : consumeFresh nonces call.exchange.nonceKey.1 call.exchange.nonceKey.2
        (call.exchange.retainUntil call.now) call.transaction with
    | error e => exact .inl ⟨rfl, by simp [Except.map, settle, Except.isOk, Except.toBool]⟩
    | ok rest => exact .inr ⟨rfl, rfl⟩

theorem serve_local : KeyLocal (serve decimalChar) (fun nonces k => nonces.find? k)
    (fun call => call.exchange.slot) := by
  have hagree (s t : OneUseNonces) (call : Call)
      (hview : s.find? call.exchange.slot = t.find? call.exchange.slot) :
      (serve decimalChar s call).2 = (serve decimalChar t call).2 ∧
        (serve decimalChar s call).1.find? call.exchange.slot =
          (serve decimalChar t call).1.find? call.exchange.slot := by
    cases hprepare : call.exchange.prepare decimalChar call.now with
    | error e =>
      rw [serve_of_error hprepare, serve_of_error hprepare]
      exact ⟨rfl, hview⟩
    | ok p =>
      have hs := @consumeFresh_row s _ _ call.exchange.nonceKey.2
        (call.exchange.retainUntil call.now) call.transaction call.exchange.purposes_namespace
      have ht := @consumeFresh_row t _ _ call.exchange.nonceKey.2
        (call.exchange.retainUntil call.now) call.transaction call.exchange.purposes_namespace
      rw [serve_of_prepared hprepare, serve_of_prepared hprepare]
      rw [Exchange.slot] at hview ⊢
      rw [hview, ← ht] at hs
      cases hconsume : consumeFresh s call.exchange.nonceKey.1 call.exchange.nonceKey.2
          (call.exchange.retainUntil call.now) call.transaction with
      | error e =>
        cases hother : consumeFresh t call.exchange.nonceKey.1 call.exchange.nonceKey.2
            (call.exchange.retainUntil call.now) call.transaction with
        | error e' =>
          rw [hconsume, hother] at hs
          exact ⟨congrArg Except.error (Except.error.inj hs), hview⟩
        | ok rest =>
          rw [hconsume, hother] at hs
          cases hs
      | ok rest =>
        cases hother : consumeFresh t call.exchange.nonceKey.1 call.exchange.nonceKey.2
            (call.exchange.retainUntil call.now) call.transaction with
        | error e =>
          rw [hconsume, hother] at hs
          cases hs
        | ok rest' =>
          rw [hconsume, hother] at hs
          exact ⟨rfl, Except.ok.inj hs⟩
  refine ⟨fun s call j hj => ?_, fun s t call h => (hagree s t call h).1,
    fun s t call h => (hagree s t call h).2⟩
  rcases @serve_cases decimalChar s call with h | h
  · rw [h.1]
  · exact consumeFresh_frame call.exchange.purposes_namespace h.1 hj

theorem serve_holding : Holding (serve decimalChar)
    (fun nonces k => (nonces.find? k).map OneUseNonce.expiresAt)
    (fun call => call.exchange.slot) Call.now (fun call => call.transaction.clock)
    (fun call => call.exchange.retainUntil call.now)
    (fun answer => answer.isOk = true) := by
  have htaken (s : OneUseNonces) (call : Call)
      (h : (serve decimalChar s call).2.isOk = true) :=
    consumeFresh_taken call.exchange.purposes_namespace
      ((serve_cases s call).resolve_left fun hrefused => hrefused.2 h).1
  refine ⟨fun s call j hj => ?_, fun s call h => ?_, fun s call h d hd => ?_,
    fun s call h => call.inOrder.1.trans_lt (htaken s call h).2.1, fun s call h => ?_⟩
  · exact congrArg _ (serve_local.frame s call j hj)
  · rcases @serve_cases decimalChar s call with hkept | hconsumed
    · rw [hkept.1]
    · exact absurd hconsumed.2 h
  · obtain ⟨row, hrow, rfl⟩ := Option.map_eq_some_iff.mp hd
    exact (htaken s call h).1 row hrow
  · obtain ⟨row, hrow, hexpires⟩ := (htaken s call h).2.2
    exact Option.map_eq_some_iff.mpr ⟨row, hrow, hexpires⟩

def Collide (nonceNamespace : String) (key other : Text) : Prop :=
  key ≠ other ∧ nonceDigest nonceNamespace key = nonceDigest nonceNamespace other

theorem slot_eq_iff {e : Exchange} {other : Exchange}
    (hfree : e.nonceKey.1 = other.nonceKey.1 →
      ¬ Collide other.nonceKey.1 e.nonceKey.2 other.nonceKey.2) :
    e.slot = other.slot ↔ e.nonceKey = other.nonceKey := by
  have hpurpose : e.purpose = other.purpose ↔ e.nonceKey.1 = other.nonceKey.1 := by
    cases e <;> cases other <;> simp [Exchange.purpose, Exchange.nonceKey]
  constructor
  · intro h
    obtain ⟨hsame, hdigest⟩ := Prod.mk.inj h
    have hnamespace := hpurpose.mp hsame
    rw [hnamespace] at hdigest
    by_cases hkey : e.nonceKey.2 = other.nonceKey.2
    · exact Prod.ext hnamespace hkey
    · exact absurd ⟨hkey, hdigest⟩ (hfree hnamespace)
  · intro h
    rw [Exchange.slot, Exchange.slot, h, hpurpose.mpr (congrArg Prod.fst h)]

/-- A call that validates its proof before the stored nonce of its key expires meets the
    row of that nonce before it expires. -/
def PromptAt (nonces : OneUseNonces) (call : Call) : Prop :=
  ∀ row ∈ nonces.find? call.exchange.slot,
    call.now < row.expiresAt → call.transaction.clock < row.expiresAt

instance (nonces : OneUseNonces) (call : Call) : Decidable (PromptAt nonces call) :=
  Option.decidableForallMem _

def PromptCalls (decimalChar : Char → Bool) (nonces : OneUseNonces) (calls : List Call) : Prop :=
  Meets (serve decimalChar) PromptAt nonces calls

instance (nonces : OneUseNonces) (calls : List Call) :
    Decidable (PromptCalls decimalChar nonces calls) :=
  ExpiringKeys.decidableMeets nonces calls

theorem prompt_of_promptAt {nonces : OneUseNonces} {call : Call} (h : PromptAt nonces call) :
    Prompt (fun nonces k => (nonces.find? k).map OneUseNonce.expiresAt)
      (fun call => call.exchange.slot) Call.now (fun call => call.transaction.clock) nonces call := by
  intro d hd
  obtain ⟨row, hrow, rfl⟩ := Option.map_eq_some_iff.mp hd
  exact h row hrow

/-- The calls that present one proof and succeed exclude one another, when a
    call with that proof accepts it only before the proof's retention ends. -/
theorem presented_once {nonces : OneUseNonces} {calls : List Call}
    (hprompt : PromptCalls decimalChar nonces calls) (presents : Call → Prop)
    [DecidablePred presents]
    (hslot : ∀ a b, presents a → presents b → a.exchange.slot = b.exchange.slot)
    (hretained : ∀ a b, presents a → presents b →
      (∃ s, (serve decimalChar s a).2.isOk = true) → (∃ s, (serve decimalChar s b).2.isOk = true) →
        b.now < b.exchange.retainUntil b.now → b.now < a.exchange.retainUntil a.now) :
    ((answers (serve decimalChar) nonces calls).filter
      (fun a => presents a.1 ∧ a.2.isOk = true)).length ≤ 1 := by
  refine length_filter_le_one ?_
  have hapart := taken_apart (@serve_holding decimalChar)
    (hprompt.mono fun _ _ => prompt_of_promptAt)
  refine (List.Pairwise.and_mem.mp hapart).imp ?_
  rintro a b ⟨ha, hb, hab⟩ ⟨hpa, hoka⟩ ⟨hpb, hokb⟩
  obtain ⟨_, s, hs⟩ := exists_of_answer ha
  obtain ⟨_, t, ht⟩ := exists_of_answer hb
  have hbound := hab hoka hokb (hslot a.1 b.1 hpa hpb)
  have hbefore := hretained a.1 b.1 hpa hpb ⟨s, by rw [← hs]; exact hoka⟩
    ⟨t, by rw [← ht]; exact hokb⟩ hbound.2
  exact absurd (lt_of_lt_of_le hbefore hbound.1) (lt_irrefl _)

theorem worker_accepted {call : Call} {secrets : Text → Option Bytes} {approved : Bool}
    {request : WorkerBootstrapRequest} {s : OneUseNonces}
    (hcall : call.exchange = .worker secrets approved request)
    (h : (serve decimalChar s call).2.isOk = true) :
    request.timestamp.instant - seconds tokenSkewSeconds ≤ call.now ∧
      call.now ≤ request.timestamp.instant + seconds workerRequestMaxAgeSeconds := by
  cases hprepare : Exchange.prepare decimalChar call.now (.worker secrets approved request) with
  | error e =>
    rw [serve_of_error (hcall ▸ hprepare)] at h
    simp [Except.isOk, Except.toBool] at h
  | ok p =>
    obtain ⟨verified, hverified, _⟩ := bind_eq_ok.mp hprepare
    obtain ⟨_, hverified⟩ := require_bind.mp hverified
    have hage : ¬ (call.now - request.timestamp.instant > seconds workerRequestMaxAgeSeconds ∨
        call.now - request.timestamp.instant < -seconds tokenSkewSeconds) :=
      (require_bind.mp hverified).1
    constructor
    · linarith [not_lt.mp (not_or.mp hage).2]
    · linarith [not_lt.mp (not_or.mp hage).1]

end Exchanges

section Results
variable {decimalChar : Char → Bool}

/-- Each identity proof is exchanged at most once. -/
structure OneExchange (decimalChar : Char → Bool) (nonces : OneUseNonces) (calls : List Call) :
    Prop where
  github : ∀ claims : GitHubOIDCClaims,
    ((answers (serve decimalChar) nonces calls).filter
      (fun a => a.1.exchange.claims? = some claims ∧ a.2.isOk = true)).length ≤ 1
  worker : ∀ request : WorkerBootstrapRequest,
    ((answers (serve decimalChar) nonces calls).filter
      (fun a => a.1.exchange.request? = some request ∧ a.2.isOk = true)).length ≤ 1

theorem oneExchange_of_prompt {nonces : OneUseNonces} {calls : List Call}
    (hprompt : PromptCalls decimalChar nonces calls) : OneExchange decimalChar nonces calls := by
  refine ⟨fun claims => ?_, fun request => ?_⟩
  · have hclaims {a : Call} (ha : a.exchange.claims? = some claims) :
        ∃ policy, a.exchange = .github policy claims := by
      cases hexchange : a.exchange with
      | github policy presented =>
        rw [hexchange] at ha
        exact ⟨policy, by rw [← Option.some.inj ha]⟩
      | worker _ _ _ => rw [hexchange] at ha; cases ha
      | bff _ _ => rw [hexchange] at ha; cases ha
    refine presented_once hprompt (fun a => a.exchange.claims? = some claims) ?_ ?_
    · intro a b ha hb
      obtain ⟨_, ha⟩ := hclaims ha
      obtain ⟨_, hb⟩ := hclaims hb
      rw [ha, hb]
      rfl
    · intro a b ha hb _ _ hahead
      obtain ⟨_, ha⟩ := hclaims ha
      obtain ⟨_, hb⟩ := hclaims hb
      rw [hb] at hahead
      rw [ha]
      exact hahead
  · have hrequest {a : Call} (ha : a.exchange.request? = some request) :
        ∃ secrets approved, a.exchange = .worker secrets approved request := by
      cases hexchange : a.exchange with
      | github _ _ => rw [hexchange] at ha; cases ha
      | worker secrets approved presented =>
        rw [hexchange] at ha
        exact ⟨secrets, approved, by rw [← Option.some.inj ha]⟩
      | bff _ _ => rw [hexchange] at ha; cases ha
    refine presented_once hprompt (fun a => a.exchange.request? = some request) ?_ ?_
    · intro a b ha hb
      obtain ⟨_, _, ha⟩ := hrequest ha
      obtain ⟨_, _, hb⟩ := hrequest hb
      rw [ha, hb]
      rfl
    · rintro a b ha hb ⟨s, hs⟩ ⟨t, ht⟩ _
      obtain ⟨_, _, ha⟩ := hrequest ha
      obtain ⟨_, _, hb⟩ := hrequest hb
      have hfirst := worker_accepted ha hs
      have hsecond := worker_accepted hb ht
      rw [ha]
      simp only [Exchange.retainUntil, workerRetainUntil, seconds, tokenSkewSeconds,
        workerRequestMaxAgeSeconds] at hfirst hsecond ⊢
      linarith [hfirst.1, hsecond.2]

/-- The calls on a key are answered as if there were no calls on other keys. -/
def AnsweredApart (decimalChar : Char → Bool) (nonces : OneUseNonces) (calls : List Call)
    (e : Exchange) : Prop :=
  (∀ call ∈ calls, call.exchange.nonceKey.1 = e.nonceKey.1 →
    ¬ Collide e.nonceKey.1 call.exchange.nonceKey.2 e.nonceKey.2) →
  (answers (serve decimalChar) nonces calls).filter
      (fun a => a.1.exchange.nonceKey = e.nonceKey) =
    answers (serve decimalChar) nonces
      (calls.filter (fun call => call.exchange.nonceKey = e.nonceKey))

theorem answeredApart (nonces : OneUseNonces) (calls : List Call) (e : Exchange) :
    AnsweredApart decimalChar nonces calls e := by
  intro hfree
  have hslot (call : Call) (hcall : call ∈ calls) :
      call.exchange.nonceKey = e.nonceKey ↔ call.exchange.slot = e.slot :=
    (slot_eq_iff (hfree call hcall)).symm
  have hfilter : calls.filter (fun call => call.exchange.nonceKey = e.nonceKey) =
      calls.filter (fun call => call.exchange.slot = e.slot) :=
    List.filter_congr fun call hcall => by simp only [hslot call hcall]
  rw [hfilter, ← answers_filter serve_local e.slot rfl calls]
  exact List.filter_congr fun a ha => by simp only [hslot a.1 (exists_of_answer ha).1]

/-- In every run of prompt calls each identity proof is exchanged at most once; in every
    run at all, no key is refused for what was done to another. -/
theorem identityProof_exchangedOnce (nonces : OneUseNonces) (calls : List Call) :
    (PromptCalls decimalChar nonces calls → OneExchange decimalChar nonces calls) ∧
      ∀ e, AnsweredApart decimalChar nonces calls e :=
  ⟨oneExchange_of_prompt, answeredApart nonces calls⟩

def sampleClaims : GitHubOIDCClaims where
  issuer := githubOidcIssuer
  audience := githubOidcAudience
  subject := "repo:owner@10/monitor@20:environment:collector".toList
  repository := "owner/monitor".toList
  repositoryId := "20".toList
  repositoryOwnerId := "10".toList
  workflowRef := "owner/monitor/.github/workflows/collect.yml@refs/heads/main".toList
  gitRef := "refs/heads/main".toList
  headSha := List.replicate 40 'a'
  environment := some "collector".toList
  runId := "91".toList
  runAttempt := "1".toList
  jwtId := "j-1".toList
  issuedAt := 1785589300
  notBefore := 1785589300
  expiresAt := 1785589600

def samplePolicy : GitHubClaimPolicy where
  repository := sampleClaims.repository
  workflows :=
    [⟨sampleClaims.workflowRef, sampleClaims.gitRef, "collector".toList, {.collectorClaim}⟩]

def sampleSecrets (version : Text) : Option Bytes :=
  if version = "v1".toList then some (encode "worker secret") else none

def sampleRequest (signature : Digest) : WorkerBootstrapRequest where
  workerId := "w-1".toList
  capabilityProofId := "p-1".toList
  timestamp := .utc (seconds 1785589320)
  nonce := "n-1".toList
  credentialVersion := "v1".toList
  signature := signature

def signedRequest : WorkerBootstrapRequest :=
  sampleRequest (hmacSha256 (encode "worker secret") (sampleRequest 0).signingPayload)

def callAt (exchange : Exchange) (now : Instant) (wait : ℕ) : Call :=
  ⟨exchange, now, ⟨now, now + wait⟩, le_refl now, by simp⟩

def sampleCalls : List Call :=
  [callAt (.github samplePolicy sampleClaims) (seconds 1785589310) 1000,
   callAt (.github samplePolicy sampleClaims) (seconds 1785589311) 1000,
   callAt (.worker sampleSecrets true signedRequest) (seconds 1785589312) 1000,
   callAt (.worker sampleSecrets true signedRequest) (seconds 1785589420) 1000,
   callAt (.github samplePolicy sampleClaims) (seconds 1785589610) 1000]

theorem identityProof_exchangedOnce_sample :
    (answers (serve Char.isDigit) Table.empty sampleCalls).map (fun a => a.2.isOk) =
        [true, false, true, false, false] ∧
      OneExchange Char.isDigit Table.empty sampleCalls :=
  ⟨by decide +kernel,
    (identityProof_exchangedOnce Table.empty sampleCalls).1 (by decide +kernel)⟩

/-- The second transaction starts one millisecond before the token expires and meets the
    row one millisecond after: its own row passes `nonce_window_valid`, and the row that it
    meets has expired. -/
def lateCalls : List Call :=
  [callAt (.github samplePolicy sampleClaims) (seconds 1785589310) 1000,
   callAt (.github samplePolicy sampleClaims) (seconds 1785589600 - 1000) 2000]

theorem lateCall_exchanged :
    (answers (serve Char.isDigit) Table.empty lateCalls).map (fun a => a.2.isOk) = [true, true] ∧
      ¬ OneExchange Char.isDigit Table.empty lateCalls :=
  ⟨by decide +kernel, fun h => absurd (h.github sampleClaims) (by decide +kernel)⟩

end Results

end PredictionMarketMonitor.IdentityExchange
