import PredictionMarketMonitor.IdentityExchange

set_option autoImplicit false

/-!
# Administrator sessions

`sessions.py` and `sql_admin_sessions.py` of `app/services/identity`. A history
keeps, beside the stored rows, under which credential version each token was
issued, and which tokens were revoked or rotated away.
-/
namespace PredictionMarketMonitor.AdminSessions

open CanonicalJson CivilTime CollectionBase FallibleSteps KeyedTable Sha256
open IdentityExchange (timestampSeconds)

def sessionLifetime : ℤ := seconds (8 * 3600)
def sessionRotationAge : ℤ := seconds (4 * 3600)
def csrfBucketSeconds : ℤ := 900
def csrfSeedDomain : Bytes := encode "admin-csrf-seed-v1" ++ [0]

/-- A typed identity error, a URL that cannot be split, a date out of range, or a
    row that the database refuses. -/
inductive SessionError
  | invalidCredential | sessionRevoked | sessionExpired | csrfRejected | serviceUnavailable
  | urlRefused | outOfRange | integrity
deriving DecidableEq

inductive SessionState
  | active | revoked
deriving DecidableEq

structure AdminSessionRecord where
  id : UUID
  tokenDigest : Digest
  csrfSeed : Bytes
  credentialVersion : String
  issuedAt : Instant
  rotateAt : Instant
  expiresAt : Instant
  state : SessionState

structure SessionEvaluation where
  sessionId : UUID
  rotationRequired : Bool

def hashSessionToken (token : String) : Digest := sha256 (encode token)

/-- Values of `datetime` end with the year 9999. -/
def laterDate (t : Instant) : Except SessionError Instant := do
  require (t < seconds 253402300800) .outOfRange
  return t

def issueAdminSession (now : Instant) (credentialVersion token : String) (id : UUID) (seed : Bytes) :
    Except SessionError AdminSessionRecord := do
  let rotateAt ← laterDate (now + sessionRotationAge)
  let expiresAt ← laterDate (now + sessionLifetime)
  return {
    id := id
    tokenDigest := hashSessionToken token
    csrfSeed := seed
    credentialVersion := credentialVersion
    issuedAt := now
    rotateAt := rotateAt
    expiresAt := expiresAt
    state := .active }

def evaluateSession (record : AdminSessionRecord) (token : String) (now : Instant)
    (activeVersions : List String) : Except SessionError SessionEvaluation := do
  require (record.tokenDigest = hashSessionToken token) .invalidCredential
  require (record.state = .active) .sessionRevoked
  require (record.credentialVersion ∈ activeVersions) .sessionRevoked
  require (now < record.expiresAt) .sessionExpired
  return ⟨record.id, record.rotateAt ≤ now⟩

/-- Functions of the standard library that CSRF evidence goes through: `int` of a
    text, `b64decode` with the URL-safe alphabet, and scheme and host of a URL. -/
structure TextLibrary where
  int : Text → Option ℤ
  b64decode : Text → Option Bytes
  urlOrigin : String → Option String

structure Deployment where
  library : TextLibrary
  signingSecret : Bytes
  allowedOrigins : List String

structure CsrfEvidence where
  token : Text
  origin : Option String
  referer : Option String

section Store
variable (site : Deployment)

def csrfSignature (record : AdminSessionRecord) (bucket : ℤ) : Digest :=
  hmacSha256 site.signingSecret (encode "admin-csrf-v1\n" ++ encodeText record.id.str ++
    encode "\n" ++ encodeText (toString bucket).toList ++ encode "\n" ++ record.csrfSeed)

def originIsAllowed (evidence : CsrfEvidence) : Except SessionError Bool :=
  match evidence.origin, evidence.referer with
  | some origin, _ => .ok (origin ∈ site.allowedOrigins)
  | none, none => .ok false
  | none, some referer => do
    let origin ← present (site.library.urlOrigin referer) .urlRefused
    return origin ∈ site.allowedOrigins

/-- `token.split(".", maxsplit=1)` with its two parts. -/
def splitToken (token : Text) : Option (Text × Text) :=
  if '.' ∈ token then
    some (token.takeWhile (· ≠ '.'), (token.dropWhile (· ≠ '.')).drop 1)
  else none

def verifyCsrfEvidence (record : AdminSessionRecord) (evidence : CsrfEvidence) (now : Instant) :
    Except SessionError Unit := do
  let allowed ← originIsAllowed site evidence
  require (allowed = true) .csrfRejected
  let (rawBucket, encoded) ← present (splitToken evidence.token) .csrfRejected
  let bucket ← present (site.library.int rawBucket) .csrfRejected
  let supplied ← present
    (site.library.b64decode (encoded ++ List.replicate ((4 - encoded.length % 4) % 4) '=')) .csrfRejected
  let current := timestampSeconds now / csrfBucketSeconds
  require ((bucket = current ∨ bucket = current - 1) ∧
    (csrfSignature site record bucket).bytes = supplied) .csrfRejected

structure AdminSession where
  id : UUID
  principalId : UUID
  sessionTokenHash : Digest
  csrfCurrentHash : Digest
  csrfPriorHash : Option Digest
  expiresAt : Instant
  rotatedAt : Option Instant
  revokedAt : Option Instant
  createdAt : Instant

structure ServicePrincipal where
  id : UUID
  active : Bool
  revokedAt : Option Instant

structure Store where
  principal : Option ServicePrincipal
  sessions : Table AdminSession.sessionTokenHash

def csrfSeed (sessionId : UUID) (digest : Digest) : Bytes :=
  (hmacSha256 site.signingSecret (csrfSeedDomain ++ bigEndian sessionId.toNat 16 ++ digest.bytes)).bytes

/-- The record of a row; its credential version is that of the deployment. -/
def record (version : String) (row : AdminSession) : AdminSessionRecord where
  id := row.id
  tokenDigest := row.sessionTokenHash
  csrfSeed := csrfSeed site row.id row.sessionTokenHash
  credentialVersion := version
  issuedAt := row.createdAt
  rotateAt := row.createdAt + sessionRotationAge
  expiresAt := row.expiresAt
  state := if row.revokedAt.isSome then .revoked else .active

def lockedRow (store : Store) (token : String) : Except SessionError AdminSession :=
  present (store.sessions.find? (hashSessionToken token)) .invalidCredential

/-- The random values of one new session: token, session and principal identity. -/
structure FreshSession where
  token : String
  id : UUID
  principalId : UUID

def principal (store : Store) (fresh : FreshSession) : ServicePrincipal :=
  store.principal.getD ⟨fresh.principalId, true, none⟩

def sessionRow (principalId : UUID) (record : AdminSessionRecord) : AdminSession where
  id := record.id
  principalId := principalId
  sessionTokenHash := record.tokenDigest
  csrfCurrentHash := sha256 record.csrfSeed
  csrfPriorHash := none
  expiresAt := record.expiresAt
  rotatedAt := none
  revokedAt := none
  createdAt := record.issuedAt

def createInSession (store : Store) (now : Instant) (version : String) (fresh : FreshSession) :
    Except SessionError (Store × AdminSessionRecord) := do
  let owner := principal store fresh
  require (owner.active = true ∧ owner.revokedAt = none) .serviceUnavailable
  let issued ← issueAdminSession now version fresh.token fresh.id
    (csrfSeed site fresh.id (hashSessionToken fresh.token))
  require (∀ row ∈ store.sessions.rows, row.id ≠ issued.id) .integrity
  let sessions ← present (store.sessions.insert? (sessionRow owner.id issued)) .integrity
  return (⟨some owner, sessions⟩, issued)

/-- `row.revoked_at = now`, with `row.rotated_at` where the token was replaced. -/
def AdminSession.closedAt (row : AdminSession) (now : Instant) (rotated : Bool) : AdminSession :=
  { row with revokedAt := some now, rotatedAt := if rotated then some now else row.rotatedAt }

def Store.close (store : Store) (token : String) (now : Instant) (rotated : Bool) : Store :=
  { store with
    sessions := store.sessions.update (hashSessionToken token) (fun row => row.closedAt now rotated)
      fun _ => rfl }

/-- A token, the credential version of its deployment and the time of its issue. -/
structure Issue where
  token : String
  version : String
  issuedAt : Instant

structure History where
  store : Store
  version : String
  issued : List Issue
  ended : List String

def History.start (version : String) (admin : Option ServicePrincipal) : History :=
  ⟨⟨admin, Table.empty⟩, version, [], []⟩

inductive Operation
  | create (now : Instant) (fresh : FreshSession)
  | access (token : String) (now : Instant) (rotate : Bool) (fresh : FreshSession)
  | verifyCsrf (token : String) (evidence : CsrfEvidence) (now : Instant)
  | revoke (token : String) (evidence : CsrfEvidence) (now : Instant)
  | redeploy (version : String)

def create (s : History) (now : Instant) (fresh : FreshSession) :
    Except SessionError (History × AdminSessionRecord) := do
  let (store, issued) ← createInSession site s.store now s.version fresh
  return ({ s with store := store, issued := ⟨fresh.token, s.version, now⟩ :: s.issued }, issued)

def closed (s : History) (token : String) (now : Instant) (rotated : Bool) : History :=
  { s with store := s.store.close token now rotated, ended := token :: s.ended }

/-- The validated session, and the token that replaces the presented one. -/
structure AdminSessionAccess where
  record : AdminSessionRecord
  replacementToken : Option String

def access (s : History) (token : String) (now : Instant) (rotate : Bool) (fresh : FreshSession) :
    Except SessionError (History × AdminSessionAccess) := do
  let row ← lockedRow s.store token
  let evaluation ← evaluateSession (record site s.version row) token now [s.version]
  if evaluation.rotationRequired = false ∨ rotate = false then
    return (s, ⟨record site s.version row, none⟩)
  else do
    let (created, replacement) ← create site s now fresh
    return (closed created token now true, ⟨replacement, some fresh.token⟩)

def verifyCsrf (s : History) (token : String) (evidence : CsrfEvidence) (now : Instant) :
    Except SessionError AdminSessionRecord := do
  let row ← lockedRow s.store token
  let _ ← evaluateSession (record site s.version row) token now [s.version]
  verifyCsrfEvidence site (record site s.version row) evidence now
  return record site s.version row

def revoke (s : History) (token : String) (evidence : CsrfEvidence) (now : Instant) :
    Except SessionError History := do
  let _ ← verifyCsrf site s token evidence now
  return closed s token now false

def step (s : History) : Operation → Except SessionError History
  | .create now fresh => do
    let (next, _) ← create site s now fresh
    return next
  | .access token now rotate fresh => do
    let (next, _) ← access site s token now rotate fresh
    return next
  | .verifyCsrf token evidence now => do
    let _ ← verifyCsrf site s token evidence now
    return s
  | .revoke token evidence now => revoke site s token evidence now
  | .redeploy version => .ok { s with version := version }

def presented : Operation → Option (String × Instant)
  | .access token now _ _ | .verifyCsrf token _ now | .revoke token _ now => some (token, now)
  | .create _ _ | .redeploy _ => none

def Collide (u v : String) : Prop := u ≠ v ∧ hashSessionToken u = hashSessionToken v

/-- Whether the token that an accepted operation presents may be accepted. -/
def Rightful (s : History) (op : Operation) : Prop :=
  ∀ token now, presented op = some (token, now) → (∃ i ∈ s.issued,
    (i.token = token ∨ Collide i.token token) ∧ i.version = s.version ∧
      now < i.issuedAt + sessionLifetime) ∧
    ∀ ended ∈ s.ended, hashSessionToken ended ≠ hashSessionToken token

/-- What an operation asks for besides a session: a replacement that can be issued, or CSRF
    evidence that is accepted. -/
def Supported (s : History) (row : AdminSession) : Operation → Prop
  | .access _ now rotate fresh => row.createdAt + sessionRotationAge ≤ now → rotate = true →
    (create site s now fresh).isOk = true
  | .verifyCsrf _ evidence now | .revoke _ evidence now =>
    (verifyCsrfEvidence site (record site s.version row) evidence now).isOk = true
  | .create _ _ | .redeploy _ => True

/-- Where everything else an operation asks for is in order, its token was issued under the
    version that is active, unless it was revoked, rotated away or is too old. -/
def UnderActiveVersion (s : History) (op : Operation) : Prop :=
  ∀ token now, presented op = some (token, now) →
    ∀ row ∈ s.store.sessions.find? (hashSessionToken token), Supported site s row op →
    ∀ i ∈ s.issued, hashSessionToken i.token = hashSessionToken token →
      now < i.issuedAt + sessionLifetime →
      (∀ ended ∈ s.ended, hashSessionToken ended ≠ hashSessionToken token) → i.version = s.version

structure SessionsLawful (start : History) (ops : List Operation) : Prop where
  accepted : Meets (step site) (fun s op => ∀ t, step site s op = .ok t → Rightful s op) start ops
  rejected : ∀ pre op mid later post, ops = pre ++ op :: mid ++ later :: post →
    ∀ token now after, presented op = some (token, now) → presented later = some (token, after) →
      now ≤ after →
      (step site (run (step site) start pre) op = .error .sessionRevoked ∨
        step site (run (step site) start pre) op = .error .sessionExpired) →
      ∀ t, step site (run (step site) start (pre ++ op :: mid)) later ≠ .ok t
  unchanged : ∀ pre op post, ops = pre ++ op :: post →
    ∀ e, step site (run (step site) start pre) op = .error e →
      (run (step site) start (pre ++ [op])).store = (run (step site) start pre).store

end Store

section Invariant
variable {site : Deployment}

/-- Rows and issued tokens name each other by their digests; a row is revoked when its token has
    been ended, and its times are those of its issue. -/
structure Inv (s : History) : Prop where
  rows : ∀ row ∈ s.store.sessions, ∃ i ∈ s.issued, hashSessionToken i.token = row.sessionTokenHash ∧
    row.createdAt = i.issuedAt ∧ row.expiresAt = i.issuedAt + sessionLifetime
  revoked : ∀ row ∈ s.store.sessions, row.revokedAt.isSome = true ↔
    ∃ ended ∈ s.ended, hashSessionToken ended = row.sessionTokenHash
  issued : ∀ i ∈ s.issued, ∃ row ∈ s.store.sessions, row.sessionTokenHash = hashSessionToken i.token
  distinct : ∀ i ∈ s.issued, ∀ j ∈ s.issued, hashSessionToken i.token = hashSessionToken j.token → i = j
  ended : ∀ ended ∈ s.ended, ∃ row ∈ s.store.sessions, row.sessionTokenHash = hashSessionToken ended

theorem inv_start (version : String) (admin : Option ServicePrincipal) : Inv (.start version admin) := by
  constructor <;> simp [History.start, Table.not_mem_empty]

theorem laterDate_eq_ok {t u : Instant} : laterDate t = .ok u ↔ t < seconds 253402300800 ∧ u = t := by
  rw [laterDate, require_bind]
  simp only [pure, Except.pure, Except.ok.injEq, eq_comm (a := u)]

theorem create_eq_ok {s : History} {now : Instant} {fresh : FreshSession}
    {created : History × AdminSessionRecord} (h : create site s now fresh = .ok created) :
    ∃ row store, s.store.sessions.insert? row = some store.sessions ∧
      row.sessionTokenHash = hashSessionToken fresh.token ∧ row.createdAt = now ∧
      row.expiresAt = now + sessionLifetime ∧ row.revokedAt = none ∧
      created.1 = { s with store := store, issued := ⟨fresh.token, s.version, now⟩ :: s.issued } := by
  obtain ⟨⟨store, issued⟩, hcreated, h⟩ := bind_eq_ok.mp h
  obtain rfl := Except.ok.inj h
  obtain ⟨_, hcreated⟩ := require_bind.mp hcreated
  obtain ⟨record, hrecord, hcreated⟩ := bind_eq_ok.mp hcreated
  obtain ⟨_, hcreated⟩ := require_bind.mp hcreated
  obtain ⟨sessions, hsessions, hcreated⟩ := bind_eq_ok.mp hcreated
  obtain ⟨rfl, rfl⟩ := Prod.mk.inj (Except.ok.inj hcreated)
  obtain ⟨rotateAt, _, hrecord⟩ := bind_eq_ok.mp hrecord
  obtain ⟨expiresAt, hexpires, hrecord⟩ := bind_eq_ok.mp hrecord
  obtain rfl := Except.ok.inj hrecord
  exact ⟨_, _, present_eq_ok.mp hsessions, rfl, rfl, (laterDate_eq_ok.mp hexpires).2, rfl, rfl⟩

theorem inv_created {s : History} {now : Instant} {fresh : FreshSession}
    {created : History × AdminSessionRecord} (hs : Inv s) (h : create site s now fresh = .ok created) :
    Inv created.1 := by
  obtain ⟨row, store, hinsert, hhash, hcreated, hexpires, hactive, heq⟩ := create_eq_ok h
  have hfree := Table.find?_eq_none.mp (Table.insert?_eq_some.mp hinsert).1
  have hmem (r : AdminSession) : r ∈ store.sessions ↔ r ∈ s.store.sessions ∨ r = row :=
    Table.mem_insert hinsert
  rw [heq]
  constructor
  · intro r hr
    rcases (hmem r).mp hr with hold | rfl
    · obtain ⟨i, hi, hfacts⟩ := hs.rows r hold
      exact ⟨i, List.mem_cons_of_mem _ hi, hfacts⟩
    · exact ⟨⟨fresh.token, s.version, now⟩, List.mem_cons_self, hhash.symm, hcreated, hexpires⟩
  · intro r hr
    rcases (hmem r).mp hr with hold | rfl
    · exact hs.revoked r hold
    · rw [hactive]
      refine ⟨nofun, fun ⟨ended, hended, hsame⟩ => ?_⟩
      obtain ⟨other, hother, htoken⟩ := hs.ended ended hended
      exact absurd (htoken.trans hsame) (hfree other hother)
  · intro i hi
    rcases List.mem_cons.mp hi with rfl | hold
    · exact ⟨row, (hmem row).mpr (.inr rfl), hhash⟩
    · obtain ⟨r, hr, htoken⟩ := hs.issued i hold
      exact ⟨r, (hmem r).mpr (.inl hr), htoken⟩
  · have hnew (i : Issue) (hi : i ∈ s.issued) : hashSessionToken i.token ≠ hashSessionToken fresh.token := by
      obtain ⟨r, hr, htoken⟩ := hs.issued i hi
      rw [← htoken, ← hhash]
      exact hfree r hr
    intro i hi j hj hsame
    rcases List.mem_cons.mp hi with rfl | hiold <;> rcases List.mem_cons.mp hj with rfl | hjold
    · rfl
    · exact absurd hsame.symm (hnew j hjold)
    · exact absurd hsame (hnew i hiold)
    · exact hs.distinct i hiold j hjold hsame
  · intro ended hended
    obtain ⟨r, hr, htoken⟩ := hs.ended ended hended
    exact ⟨r, (hmem r).mpr (.inl hr), htoken⟩

theorem mem_close {store : Store} {token : String} {now : Instant} {rotated : Bool} {r : AdminSession} :
    r ∈ (store.close token now rotated).sessions ↔
      (∃ q ∈ store.sessions, q.sessionTokenHash = hashSessionToken token ∧ q.closedAt now rotated = r) ∨
      (r ∈ store.sessions ∧ r.sessionTokenHash ≠ hashSessionToken token) :=
  @Table.mem_update _ _ _ _ store.sessions _ (fun row => row.closedAt now rotated) (fun _ => rfl) r

theorem inv_closed {s : History} {token : String} (hs : Inv s)
    (hrow : ∃ row ∈ s.store.sessions, row.sessionTokenHash = hashSessionToken token) (now : Instant)
    (rotated : Bool) : Inv (closed s token now rotated) := by
  have hkept (r : AdminSession) (hr : r ∈ s.store.sessions) :
      ∃ q ∈ (s.store.close token now rotated).sessions, q.sessionTokenHash = r.sessionTokenHash := by
    by_cases hsame : r.sessionTokenHash = hashSessionToken token
    · exact ⟨_, mem_close.mpr (.inl ⟨r, hr, hsame, rfl⟩), rfl⟩
    · exact ⟨r, mem_close.mpr (.inr ⟨hr, hsame⟩), rfl⟩
  constructor
  · intro r hr
    rcases mem_close.mp hr with ⟨q, hq, _, rfl⟩ | ⟨hr, _⟩
    · exact hs.rows q hq
    · exact hs.rows r hr
  · intro r hr
    rcases mem_close.mp hr with ⟨q, hq, hsame, rfl⟩ | ⟨hr, hother⟩
    · exact ⟨fun _ => ⟨token, List.mem_cons_self, hsame.symm⟩, fun _ => rfl⟩
    · rw [hs.revoked r hr]
      constructor
      · rintro ⟨ended, hended, htoken⟩
        exact ⟨ended, List.mem_cons_of_mem _ hended, htoken⟩
      · rintro ⟨ended, hended, htoken⟩
        rcases List.mem_cons.mp hended with rfl | hold
        · exact absurd htoken.symm hother
        · exact ⟨ended, hold, htoken⟩
  · intro i hi
    obtain ⟨r, hr, htoken⟩ := hs.issued i hi
    obtain ⟨q, hq, hsame⟩ := hkept r hr
    exact ⟨q, hq, hsame.trans htoken⟩
  · exact hs.distinct
  · intro ended hended
    have hold : ∃ row ∈ s.store.sessions, row.sessionTokenHash = hashSessionToken ended := by
      rcases List.mem_cons.mp hended with rfl | hold
      · exact hrow
      · exact hs.ended ended hold
    obtain ⟨r, hr, htoken⟩ := hold
    obtain ⟨q, hq, hsame⟩ := hkept r hr
    exact ⟨q, hq, hsame.trans htoken⟩

/-- A session is accepted while it is neither revoked nor too old: the record has
    the version it is compared with. -/
theorem evaluateSession_eq_ok {version : String} {row : AdminSession} {token : String} {now : Instant}
    {evaluation : SessionEvaluation} (hrow : row.sessionTokenHash = hashSessionToken token) :
    evaluateSession (record site version row) token now [version] = .ok evaluation ↔
      row.revokedAt.isSome = false ∧ now < row.expiresAt ∧
        evaluation = ⟨row.id, row.createdAt + sessionRotationAge ≤ now⟩ := by
  have hstate : (record site version row).state = .active ↔ row.revokedAt.isSome = false := by
    change (if row.revokedAt.isSome then SessionState.revoked else .active) = .active ↔ _
    cases row.revokedAt.isSome <;> simp
  rw [evaluateSession, require_bind, require_bind, require_bind, require_bind, hstate]
  simp only [pure, Except.pure, Except.ok.injEq, eq_comm (a := evaluation)]
  constructor
  · rintro ⟨_, hactive, _, hage, heq⟩
    exact ⟨hactive, hage, heq⟩
  · rintro ⟨hactive, hage, heq⟩
    exact ⟨hrow, hactive, List.mem_singleton.mpr rfl, hage, heq⟩

theorem lockedRow_eq_ok {store : Store} {token : String} {row : AdminSession} :
    lockedRow store token = .ok row ↔ store.sessions.find? (hashSessionToken token) = some row :=
  present_eq_ok

/-- An operation on a token that has a live row and everything else it asks for. -/
structure Live (site : Deployment) (s : History) (op : Operation) (token : String) (now : Instant)
    (row : AdminSession) : Prop where
  located : s.store.sessions.find? (hashSessionToken token) = some row
  active : row.revokedAt.isSome = false
  young : now < row.expiresAt
  supported : Supported site s row op

theorem live_hash {s : History} {op : Operation} {token : String} {now : Instant} {row : AdminSession}
    (h : Live site s op token now row) :
    row ∈ s.store.sessions ∧ row.sessionTokenHash = hashSessionToken token :=
  Table.find?_eq_some.mp h.located

theorem verifyCsrf_isOk {s : History} {token : String} {evidence : CsrfEvidence} {now : Instant} :
    (verifyCsrf site s token evidence now).isOk = true ↔
      ∃ row, Live site s (.verifyCsrf token evidence now) token now row := by
  rw [isOk_iff]
  constructor
  · rintro ⟨_, h⟩
    obtain ⟨row, hrow, h⟩ := bind_eq_ok.mp h
    obtain ⟨evaluation, hevaluation, h⟩ := bind_eq_ok.mp h
    obtain ⟨passed, hcsrf, _⟩ := bind_eq_ok.mp h
    have hfind := lockedRow_eq_ok.mp hrow
    obtain ⟨hactive, hyoung, _⟩ :=
      (evaluateSession_eq_ok (Table.find?_eq_some.mp hfind).2).mp hevaluation
    exact ⟨row, hfind, hactive, hyoung, isOk_iff.mpr ⟨passed, hcsrf⟩⟩
  · rintro ⟨row, hlive⟩
    obtain ⟨passed, hcsrf⟩ := isOk_iff.mp hlive.supported
    exact ⟨_, bind_eq_ok.mpr ⟨row, lockedRow_eq_ok.mpr hlive.located, bind_eq_ok.mpr ⟨_,
      (evaluateSession_eq_ok (live_hash hlive).2).mpr ⟨hlive.active, hlive.young, rfl⟩,
      bind_eq_ok.mpr ⟨passed, hcsrf, rfl⟩⟩⟩⟩

theorem access_eq_ok {s : History} {token : String} {now : Instant} {rotate : Bool}
    {fresh : FreshSession} {accessed : History × AdminSessionAccess}
    (h : access site s token now rotate fresh = .ok accessed) :
    (∃ row, Live site s (.access token now rotate fresh) token now row) ∧
      (accessed.1 = s ∨ ∃ created, create site s now fresh = .ok created ∧
        accessed.1 = closed created.1 token now true) := by
  obtain ⟨row, hrow, h⟩ := bind_eq_ok.mp h
  obtain ⟨evaluation, hevaluation, h⟩ := bind_eq_ok.mp h
  have hfind := lockedRow_eq_ok.mp hrow
  obtain ⟨hactive, hyoung, rfl⟩ := (evaluateSession_eq_ok (Table.find?_eq_some.mp hfind).2).mp hevaluation
  split at h
  · rename_i hkept
    obtain rfl := Except.ok.inj h
    refine ⟨⟨row, hfind, hactive, hyoung, fun hage hrotate => ?_⟩, .inl rfl⟩
    rcases hkept with hyoung | hnever
    · exact absurd hage (of_decide_eq_false hyoung)
    · rw [hrotate] at hnever
      cases hnever
  · obtain ⟨created, hcreated, h⟩ := bind_eq_ok.mp h
    obtain rfl := Except.ok.inj h
    exact ⟨⟨row, hfind, hactive, hyoung, fun _ _ => isOk_iff.mpr ⟨created, hcreated⟩⟩,
      .inr ⟨created, hcreated, rfl⟩⟩

/-- An operation accepts a token exactly when its session is live and all else is in order. -/
theorem accepted_iff {s : History} {op : Operation} {token : String} {now : Instant}
    (hop : presented op = some (token, now)) :
    (∃ t, step site s op = .ok t) ↔ ∃ row, Live site s op token now row := by
  cases op with
  | create | redeploy => cases hop
  | access token now rotate fresh =>
    obtain ⟨rfl, rfl⟩ := Prod.mk.inj (Option.some.inj hop)
    constructor
    · rintro ⟨t, h⟩
      obtain ⟨accessed, haccessed, _⟩ := bind_eq_ok.mp h
      exact (access_eq_ok haccessed).1
    · rintro ⟨row, hlive⟩
      have hevaluation := (@evaluateSession_eq_ok site s.version row token now _ (live_hash hlive).2).mpr
        ⟨hlive.active, hlive.young, rfl⟩
      have haccess : ∃ accessed, access site s token now rotate fresh = .ok accessed := by
        rw [access, lockedRow_eq_ok.mpr hlive.located, ok_bind, hevaluation, ok_bind]
        split
        · exact ⟨_, rfl⟩
        · rename_i hreplace
          obtain ⟨hage, hrotate⟩ := not_or.mp hreplace
          obtain ⟨created, hcreated⟩ := isOk_iff.mp (hlive.supported
            (by simpa using hage) (by simpa using hrotate))
          exact ⟨_, bind_eq_ok.mpr ⟨created, hcreated, rfl⟩⟩
      obtain ⟨accessed, haccessed⟩ := haccess
      exact ⟨accessed.1, bind_eq_ok.mpr ⟨accessed, haccessed, rfl⟩⟩
  | verifyCsrf token evidence now =>
    obtain ⟨rfl, rfl⟩ := Prod.mk.inj (Option.some.inj hop)
    rw [← verifyCsrf_isOk, isOk_iff]
    constructor
    · rintro ⟨t, h⟩
      obtain ⟨row, hrow, _⟩ := bind_eq_ok.mp h
      exact ⟨row, hrow⟩
    · rintro ⟨row, hrow⟩
      exact ⟨s, bind_eq_ok.mpr ⟨row, hrow, rfl⟩⟩
  | revoke token evidence now =>
    obtain ⟨rfl, rfl⟩ := Prod.mk.inj (Option.some.inj hop)
    have hsame : (∃ row, Live site s (.revoke token evidence now) token now row) ↔
        ∃ row, Live site s (.verifyCsrf token evidence now) token now row :=
      exists_congr fun row => ⟨fun h => ⟨h.located, h.active, h.young, h.supported⟩,
        fun h => ⟨h.located, h.active, h.young, h.supported⟩⟩
    rw [hsame, ← verifyCsrf_isOk, isOk_iff]
    constructor
    · rintro ⟨t, h⟩
      obtain ⟨row, hrow, _⟩ := bind_eq_ok.mp h
      exact ⟨row, hrow⟩
    · rintro ⟨row, hrow⟩
      exact ⟨_, bind_eq_ok.mpr ⟨row, hrow, rfl⟩⟩

/-- The step lemma: an accepted operation creates a session, ends one, replaces one, or leaves all. -/
theorem step_cases {s t : History} {op : Operation} (h : step site s op = .ok t) :
    t = s ∨ (∃ version, t = { s with version := version }) ∨
    (∃ now fresh created, create site s now fresh = .ok created ∧ t = created.1) ∨
    (∃ token now row, Live site s op token now row ∧ t = closed s token now false) ∨
    (∃ token now fresh created row, Live site s op token now row ∧
      create site s now fresh = .ok created ∧ t = closed created.1 token now true) := by
  cases op with
  | create now fresh =>
    obtain ⟨created, hcreated, h⟩ := bind_eq_ok.mp h
    exact .inr (.inr (.inl ⟨now, fresh, created, hcreated, (Except.ok.inj h).symm⟩))
  | access token now rotate fresh =>
    obtain ⟨accessed, haccessed, h⟩ := bind_eq_ok.mp h
    obtain rfl := Except.ok.inj h
    obtain ⟨⟨row, hlive⟩, hsame | ⟨created, hcreated, heq⟩⟩ := access_eq_ok haccessed
    · exact .inl hsame
    · exact .inr (.inr (.inr (.inr ⟨token, now, fresh, created, row, hlive, hcreated, heq⟩)))
  | verifyCsrf token evidence now =>
    obtain ⟨_, _, h⟩ := bind_eq_ok.mp h
    exact .inl (Except.ok.inj h).symm
  | revoke token evidence now =>
    obtain ⟨row, hlive⟩ := (accepted_iff rfl).mp ⟨t, h⟩
    obtain ⟨_, _, h⟩ := bind_eq_ok.mp h
    exact .inr (.inr (.inr (.inl ⟨token, now, row, hlive, (Except.ok.inj h).symm⟩)))
  | redeploy version => exact .inr (.inl ⟨version, (Except.ok.inj h).symm⟩)

theorem inv_step {s t : History} {op : Operation} (hs : Inv s) (h : step site s op = .ok t) : Inv t := by
  rcases step_cases h with rfl | ⟨version, rfl⟩ | ⟨now, fresh, created, hcreated, rfl⟩ |
    ⟨token, now, row, hlive, rfl⟩ | ⟨token, now, fresh, created, row, hlive, hcreated, rfl⟩
  · exact hs
  · exact ⟨hs.rows, hs.revoked, hs.issued, hs.distinct, hs.ended⟩
  · exact inv_created hs hcreated
  · exact inv_closed hs ⟨row, live_hash hlive⟩ now false
  · obtain ⟨_, store, hinsert, _, _, _, _, heq⟩ := create_eq_ok hcreated
    refine inv_closed (inv_created hs hcreated) ⟨row, ?_, (live_hash hlive).2⟩ now true
    rw [heq]
    exact (Table.mem_insert hinsert).mpr (.inl (live_hash hlive).1)

/-- Accepted tokens are rightful exactly where no live session of another version is presented. -/
theorem rightful_iff {s : History} (hs : Inv s) (op : Operation) :
    (∀ t, step site s op = .ok t → Rightful s op) ↔ UnderActiveVersion site s op := by
  constructor
  · intro h token now hop row hrow hsupported i hi hhash hyoung hopen
    obtain ⟨hmem, hrowHash⟩ := Table.find?_eq_some.mp hrow
    obtain ⟨j, hj, hjhash, _, hexpires⟩ := hs.rows row hmem
    obtain rfl := hs.distinct i hi j hj (hhash.trans (hjhash.trans hrowHash).symm)
    have hactive : row.revokedAt.isSome = false := by
      rw [Bool.eq_false_iff, ne_eq, hs.revoked row hmem]
      rintro ⟨ended, hended, hsame⟩
      exact hopen ended hended (hsame.trans hrowHash)
    obtain ⟨t, hstep⟩ := (@accepted_iff site s op token now hop).mpr
      ⟨row, hrow, hactive, by rw [hexpires]; exact hyoung, hsupported⟩
    obtain ⟨⟨k, hk, hsame, hversion, _⟩, _⟩ := h t hstep token now hop
    have hkhash : hashSessionToken k.token = hashSessionToken token := by
      rcases hsame with rfl | ⟨_, hcollide⟩
      · rfl
      · exact hcollide
    rw [hs.distinct i hi k hk (hhash.trans hkhash.symm)]
    exact hversion
  · intro h t hstep token now hop
    obtain ⟨row, hlive⟩ := (accepted_iff hop).mp ⟨t, hstep⟩
    obtain ⟨hmem, hrowHash⟩ := live_hash hlive
    obtain ⟨i, hi, hhash, _, hexpires⟩ := hs.rows row hmem
    have hyoung : now < i.issuedAt + sessionLifetime := by
      rw [← hexpires]
      exact hlive.young
    have hopen : ∀ ended ∈ s.ended, hashSessionToken ended ≠ hashSessionToken token := by
      intro ended hended hsame
      have hrevoked := (hs.revoked row hmem).mpr ⟨ended, hended, hsame.trans hrowHash.symm⟩
      rw [hlive.active] at hrevoked
      cases hrevoked
    refine ⟨⟨i, hi, ?_, h token now hop row hlive.located hlive.supported i hi (hhash.trans hrowHash)
      hyoung hopen, hyoung⟩, hopen⟩
    by_cases hsame : i.token = token
    · exact .inl hsame
    · exact .inr ⟨hsame, hhash.trans hrowHash⟩

end Invariant

section Rejections
variable {site : Deployment}

def Ends (e : SessionError) : Prop := e = .sessionRevoked ∨ e = .sessionExpired

/-- A computation that neither finds a session revoked nor expired. -/
def NeverEnds {α : Type} (x : Except SessionError α) : Prop := ∀ e, x = .error e → ¬Ends e

theorem neverEnds_ok {α : Type} (a : α) : NeverEnds (Except.ok a : Except SessionError α) := nofun

theorem neverEnds_bind {α β : Type} {x : Except SessionError α} {f : α → Except SessionError β}
    (hx : NeverEnds x) (hf : ∀ a, x = .ok a → NeverEnds (f a)) : NeverEnds (x >>= f) := by
  intro e h
  cases hresult : x with
  | error other =>
    rw [hresult, error_bind] at h
    obtain rfl := Except.error.inj h
    exact hx other hresult
  | ok a =>
    rw [hresult, ok_bind] at h
    exact hf a hresult e h

theorem neverEnds_require {p : Prop} [Decidable p] {e : SessionError} (h : ¬Ends e) :
    NeverEnds (require p e : Except SessionError PUnit) := by
  intro other hother
  by_cases hp : p
  · rw [require_of hp] at hother
    cases hother
  · rw [require_of_not hp] at hother
    obtain rfl := Except.error.inj hother
    exact h

theorem neverEnds_present {α : Type} {x : Option α} {e : SessionError} (h : ¬Ends e) :
    NeverEnds (present x e) := by
  intro other hother
  cases x with
  | some a => cases hother
  | none =>
    obtain rfl := Except.error.inj hother
    exact h

theorem neverEnds_laterDate (t : Instant) : NeverEnds (laterDate t) :=
  neverEnds_bind (neverEnds_require (by simp [Ends])) fun _ _ => neverEnds_ok _

theorem neverEnds_create (s : History) (now : Instant) (fresh : FreshSession) :
    NeverEnds (create site s now fresh) := by
  refine neverEnds_bind (neverEnds_bind (neverEnds_require (by simp [Ends])) fun _ _ =>
    neverEnds_bind ?_ fun _ _ => neverEnds_bind (neverEnds_require (by simp [Ends])) fun _ _ =>
    neverEnds_bind (neverEnds_present (by simp [Ends])) fun _ _ => neverEnds_ok _) fun _ _ => neverEnds_ok _
  exact neverEnds_bind (neverEnds_laterDate _) fun _ _ =>
    neverEnds_bind (neverEnds_laterDate _) fun _ _ => neverEnds_ok _

theorem neverEnds_csrf (r : AdminSessionRecord) (evidence : CsrfEvidence) (now : Instant) :
    NeverEnds (verifyCsrfEvidence site r evidence now) := by
  refine neverEnds_bind ?_ fun _ _ => neverEnds_bind (neverEnds_require (by simp [Ends])) fun _ _ =>
    neverEnds_bind (neverEnds_present (by simp [Ends])) fun _ _ =>
    neverEnds_bind (neverEnds_present (by simp [Ends])) fun _ _ =>
    neverEnds_bind (neverEnds_present (by simp [Ends])) fun _ _ => neverEnds_require (by simp [Ends])
  unfold originIsAllowed
  split
  · exact neverEnds_ok _
  · exact neverEnds_ok _
  · exact neverEnds_bind (neverEnds_present (by simp [Ends])) fun _ _ => neverEnds_ok _

def Dead (s : History) (token : String) (now : Instant) : Prop :=
  ∃ row, s.store.sessions.find? (hashSessionToken token) = some row ∧
    (row.revokedAt.isSome = true ∨ row.expiresAt ≤ now)

theorem dead_of_ends {α : Type} {s : History} {token : String} {now : Instant}
    {next : AdminSession → SessionEvaluation → Except SessionError α} {e : SessionError}
    (hnext : ∀ row evaluation, NeverEnds (next row evaluation))
    (h : (do
      let row ← lockedRow s.store token
      let evaluation ← evaluateSession (record site s.version row) token now [s.version]
      next row evaluation) = Except.error e) (he : Ends e) : Dead s token now := by
  cases hfind : s.store.sessions.find? (hashSessionToken token) with
  | none =>
    rw [lockedRow, hfind] at h
    obtain rfl := Except.error.inj h
    rcases he with he | he <;> cases he
  | some row =>
    refine ⟨row, hfind, ?_⟩
    by_contra hlive
    obtain ⟨hactive, hyoung⟩ := not_or.mp hlive
    have hevaluation := (@evaluateSession_eq_ok site s.version row token now _
      (Table.find?_eq_some.mp hfind).2).mpr ⟨by simpa using hactive, not_le.mp hyoung, rfl⟩
    rw [lockedRow_eq_ok.mpr hfind, ok_bind, hevaluation, ok_bind] at h
    exact hnext row _ e h he

theorem dead_of_error {s : History} {op : Operation} {token : String} {now : Instant}
    {e : SessionError} (hop : presented op = some (token, now)) (h : step site s op = .error e)
    (he : Ends e) : Dead s token now := by
  have hinner {α : Type} {x : Except SessionError α} {f : α → History}
      (hx : (do let a ← x; return f a) = Except.error e) : x = .error e := by
    cases x with
    | error other =>
      obtain rfl := Except.error.inj hx
      rfl
    | ok a => cases hx
  have hcsrf {token : String} {evidence : CsrfEvidence} {now : Instant}
      (hx : verifyCsrf site s token evidence now = .error e) : Dead s token now :=
    dead_of_ends (fun _ _ => neverEnds_bind (neverEnds_csrf _ _ _) fun _ _ => neverEnds_ok _) hx he
  cases op with
  | create | redeploy => cases hop
  | access token now rotate fresh =>
    obtain ⟨rfl, rfl⟩ := Prod.mk.inj (Option.some.inj hop)
    refine dead_of_ends (fun row evaluation => ?_) (hinner h) he
    split
    · exact neverEnds_ok _
    · exact neverEnds_bind (neverEnds_create _ _ _) fun _ _ => neverEnds_ok _
  | verifyCsrf token evidence now =>
    obtain ⟨rfl, rfl⟩ := Prod.mk.inj (Option.some.inj hop)
    exact hcsrf (hinner h)
  | revoke token evidence now =>
    obtain ⟨rfl, rfl⟩ := Prod.mk.inj (Option.some.inj hop)
    exact hcsrf (hinner h)

theorem dead_created {s : History} {token : String} {now at_ : Instant} {fresh : FreshSession}
    {created : History × AdminSessionRecord} (h : Dead s token at_)
    (hcreated : create site s now fresh = .ok created) : Dead created.1 token at_ := by
  obtain ⟨row, hfind, hdead⟩ := h
  obtain ⟨added, store, hinsert, _, _, _, _, heq⟩ := create_eq_ok hcreated
  have hfree := (Table.insert?_eq_some.mp hinsert).1
  refine ⟨row, ?_, hdead⟩
  rw [heq]
  change store.sessions.find? _ = some row
  rw [Table.find?_insert hinsert, if_neg, hfind]
  intro hsame
  rw [hsame, hfind] at hfree
  cases hfree

theorem dead_closed {s : History} {token other : String} {now at_ : Instant} (h : Dead s token at_)
    (rotated : Bool) : Dead (closed s other now rotated) token at_ := by
  obtain ⟨row, hfind, hdead⟩ := h
  obtain ⟨hmem, hhash⟩ := Table.find?_eq_some.mp hfind
  by_cases hsame : row.sessionTokenHash = hashSessionToken other
  · exact ⟨_, Table.find?_eq_some.mpr ⟨mem_close.mpr (.inl ⟨row, hmem, hsame, rfl⟩), hhash⟩, .inl rfl⟩
  · exact ⟨row, Table.find?_eq_some.mpr ⟨mem_close.mpr (.inr ⟨hmem, hsame⟩), hhash⟩, hdead⟩

/-- No operation revives a row. -/
theorem dead_step {s t : History} {op : Operation} {token : String} {at_ : Instant}
    (hdead : Dead s token at_) (h : step site s op = .ok t) : Dead t token at_ := by
  rcases step_cases h with rfl | ⟨version, rfl⟩ | ⟨now, fresh, created, hcreated, rfl⟩ |
    ⟨other, now, row, _, rfl⟩ | ⟨other, now, fresh, created, row, _, hcreated, rfl⟩
  · exact hdead
  · exact hdead
  · exact dead_created hdead hcreated
  · exact dead_closed hdead false
  · exact dead_closed (dead_created hdead hcreated) true

theorem dead_refused {s : History} {op : Operation} {token : String} {now after : Instant}
    (hdead : Dead s token now) (hlater : now ≤ after) (hop : presented op = some (token, after))
    (t : History) : step site s op ≠ .ok t := by
  intro h
  obtain ⟨row, hlive⟩ := (accepted_iff hop).mp ⟨t, h⟩
  obtain ⟨other, hfind, hdead⟩ := hdead
  obtain rfl := Option.some.inj (hlive.located.symm.trans hfind)
  rcases hdead with hrevoked | hold
  · rw [hlive.active] at hrevoked
    cases hrevoked
  · exact absurd hlive.young (not_lt.mpr (hold.trans hlater))

end Rejections

section Results
variable {site : Deployment}

theorem meets_congr {C D : History → Operation → Prop} (h : ∀ s op, Inv s → (C s op ↔ D s op))
    {s : History} {ops : List Operation} (hs : Inv s) :
    Meets (step site) C s ops ↔ Meets (step site) D s ops := by
  induction ops generalizing s with
  | nil => exact Iff.rfl
  | cons op ops ih =>
    refine and_congr (h s op hs) (ih ?_)
    rcases attempt_cases (step site) s op with hsame | hstep
    · rw [hsame]
      exact hs
    · exact inv_step hs hstep

/-- A history is lawful exactly when no operation presents the live session of another
    credential version with everything else in order. -/
theorem sessions_lawful_iff (version : String) (admin : Option ServicePrincipal) (ops : List Operation) :
    SessionsLawful site (.start version admin) ops ↔
      Meets (step site) (UnderActiveVersion site) (.start version admin) ops := by
  rw [← meets_congr (fun s op hs => rightful_iff hs op) (inv_start version admin)]
  refine ⟨fun h => h.accepted, fun haccepted => ⟨haccepted, ?_, ?_⟩⟩
  · intro pre op mid later post _ token now after hop hlater hafter hrejected t
    have hdead : Dead (run (step site) (.start version admin) pre) token now := by
      rcases hrejected with hrejected | hrejected
      · exact dead_of_error hop hrejected (.inl rfl)
      · exact dead_of_error hop hrejected (.inr rfl)
    rw [run_append]
    exact dead_refused (run_invariant (I := fun s => Dead s token now)
      (fun _ _ _ hdead hstep => dead_step hdead hstep) (op :: mid) hdead) hafter hlater t
  · intro pre op post _ e hrejected
    rw [run_append, run_cons, run_nil, attempt_of_error hrejected]

end Results

section Sample

def quietSite : Deployment := ⟨⟨fun _ => none, fun _ => none, fun _ => none⟩, [], []⟩

/-- A session issued under one credential version is used under the next one. -/
def rotatedCredential : List Operation :=
  [.create (seconds 0) ⟨"token", 1, 2⟩, .redeploy "admin-v2",
   .access "token" (seconds 60) false ⟨"unused", 3, 4⟩]

theorem rotatedCredential_accepted :
    ¬SessionsLawful quietSite (.start "admin-v1" none) rotatedCredential := by
  intro h
  have hrightful : ∀ t, step quietSite (run (step quietSite) (.start "admin-v1" none)
      (rotatedCredential.take 2)) (.access "token" (seconds 60) false ⟨"unused", 3, 4⟩) = .ok t →
      Rightful (run (step quietSite) (.start "admin-v1" none) (rotatedCredential.take 2))
        (.access "token" (seconds 60) false ⟨"unused", 3, 4⟩) := h.accepted.2.2.1
  have haccepted : (step quietSite (run (step quietSite) (.start "admin-v1" none)
      (rotatedCredential.take 2)) (.access "token" (seconds 60) false ⟨"unused", 3, 4⟩)).isOk = true := by
    decide +kernel
  have hissued : ∀ i ∈ (run (step quietSite) (.start "admin-v1" none) (rotatedCredential.take 2)).issued,
      i.version ≠ (run (step quietSite) (.start "admin-v1" none) (rotatedCredential.take 2)).version := by
    decide +kernel
  obtain ⟨t, ht⟩ := isOk_iff.mp haccepted
  obtain ⟨⟨i, hi, _, hversion, _⟩, _⟩ := hrightful t ht "token" (seconds 60) rfl
  exact hissued i hi hversion

end Sample

end PredictionMarketMonitor.AdminSessions
