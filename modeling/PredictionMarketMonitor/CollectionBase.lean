import PredictionMarketMonitor.CanonicalJson
import PredictionMarketMonitor.CivilTime
import PredictionMarketMonitor.FallibleSteps
import PredictionMarketMonitor.Sha1

set_option autoImplicit false

/-!
# Shared vocabularies, errors and cryptographic primitives

`app/domain/enums.py` and `app/collection/base.py`. A database clock value is
an `Instant`; a hexadecimal digest is kept as the digest it renders.
-/
namespace PredictionMarketMonitor.CollectionBase

open CanonicalJson CivilTime FallibleSteps Sha256

inductive AuthorizationStatus
  | approved | denied | revoked | expired
deriving DecidableEq

inductive SourcePlatform
  | reddit | dcinside | tossSecurities | naverFinance | manifold
deriving DecidableEq

def SourcePlatform.value : SourcePlatform → String
  | .reddit => "reddit"
  | .dcinside => "dcinside"
  | .tossSecurities => "toss_securities"
  | .naverFinance => "naver_finance"
  | .manifold => "manifold"

inductive CommandKind
  | scheduled | manual | recovery
deriving DecidableEq

inductive CommandStatus
  | queued | dispatchReserved | dispatched | running | succeeded | partialSuccess | skipped
  | failedRetryable | failedTerminal | staleAbandoned
deriving DecidableEq

def CommandStatus.value : CommandStatus → String
  | .queued => "queued"
  | .dispatchReserved => "dispatch_reserved"
  | .dispatched => "dispatched"
  | .running => "running"
  | .succeeded => "succeeded"
  | .partialSuccess => "partial"
  | .skipped => "skipped"
  | .failedRetryable => "failed_retryable"
  | .failedTerminal => "failed_terminal"
  | .staleAbandoned => "stale_abandoned"

inductive RunStatus
  | created | running | succeeded | failedRetryable | failedTerminal | skippedPolicy
  | skippedQuota | staleAbandoned
deriving DecidableEq

def RunStatus.value : RunStatus → String
  | .created => "created"
  | .running => "running"
  | .succeeded => "succeeded"
  | .failedRetryable => "failed_retryable"
  | .failedTerminal => "failed_terminal"
  | .skippedPolicy => "skipped_policy"
  | .skippedQuota => "skipped_quota"
  | .staleAbandoned => "stale_abandoned"

inductive TerminalReason
  | sourceExhausted | reviewedPageCap | reviewedPostCap | reviewedByteCap
deriving DecidableEq

def TerminalReason.value : TerminalReason → String
  | .sourceExhausted => "source_exhausted"
  | .reviewedPageCap => "reviewed_page_cap"
  | .reviewedPostCap => "reviewed_post_cap"
  | .reviewedByteCap => "reviewed_byte_cap"

inductive PageItemDisposition
  | accepted | duplicate | rejectedOversize
deriving DecidableEq

def PageItemDisposition.value : PageItemDisposition → String
  | .accepted => "accepted"
  | .duplicate => "duplicate"
  | .rejectedOversize => "rejected_oversize"

inductive Sentiment
  | positive | neutral | negative
deriving DecidableEq

def Sentiment.value : Sentiment → String
  | .positive => "positive"
  | .neutral => "neutral"
  | .negative => "negative"

inductive BudgetDecisionStatus
  | allow | softLimit | hardStop
deriving DecidableEq

abbrev UUID := BitVec 128

instance : LawfulBEq UUID := inferInstance

namespace UUID

/-- The 32 hexadecimal digits; ordering identities by `hex` orders them by value. -/
def hex (u : UUID) : Text := hexString u.toNat 32

/-- The 8-4-4-4-12 form of `str(uuid)`. -/
def str (u : UUID) : Text :=
  let ds := u.hex
  ds.take 8 ++ '-' :: (ds.drop 8).take 4 ++ '-' :: (ds.drop 12).take 4 ++
    '-' :: (ds.drop 16).take 4 ++ '-' :: ds.drop 20

def json (u : UUID) : Json := .str u.str

def HexLE (u v : UUID) : Prop := u.toNat ≤ v.toNat

instance : DecidableRel HexLE := fun u v => inferInstanceAs (Decidable (u.toNat ≤ v.toNat))

instance : IsTrans UUID HexLE := ⟨fun _ _ _ h k => Nat.le_trans h k⟩

instance : Std.Total HexLE := ⟨fun u v => Nat.le_total u.toNat v.toNat⟩

/-- Listed and optional identities are inspected, not searched for among all of them. -/
instance (priority := 2000) {p : UUID → Prop} [DecidablePred p] (ids : List UUID) :
    Decidable (∃ id ∈ ids, p id) :=
  List.decidableBEx p ids

instance (priority := 2000) {p : UUID → Prop} [DecidablePred p] (ids : List UUID) :
    Decidable (∀ id ∈ ids, p id) :=
  List.decidableBAll p ids

instance (priority := 2000) {p : UUID → Prop} [DecidablePred p] (o : Option UUID) :
    Decidable (∃ id ∈ o, p id) :=
  Option.decidableExistsMem o

instance (priority := 2000) {p : UUID → Prop} [DecidablePred p] (o : Option UUID) :
    Decidable (∀ id ∈ o, p id) :=
  Option.decidableForallMem o

end UUID

/-- `uuid5(namespace, name)`: version and variant are written over the digest. -/
def uuid5 (space : UUID) (name : Text) : UUID :=
  let n := ofBigEndian ((Sha1.sha1 (bigEndian space.toNat 16 ++ encodeText name)).take 16)
  let low := n % 2 ^ 62 + 2 * 2 ^ 62
  let middle := n / 2 ^ 64 % 2 ^ 12 + 5 * 2 ^ 12
  BitVec.ofNat 128 (n / 2 ^ 80 * 2 ^ 80 + middle * 2 ^ 64 + low)

def namespaceUrl : UUID := BitVec.ofNat 128 0x6ba7b8119dad11d180b400c04fd430c8

def Digest.json (d : Digest) : Json := .str (Digest.hexdigest d)

def instantJson (t : Instant) : Json := .str (Datetime.utc t).json

def maxPostBytes : ℕ := 256 * 1024
def maxCommandAttempts : ℕ := 3

theorem firstAttempt_valid : 1 ≤ 1 ∧ 1 ≤ maxCommandAttempts := by decide

def reservationStaleSeconds : ℤ := 3 * 60
def executionStaleSeconds : ℤ := 6 * 60

def FitsInteger (n : ℤ) : Prop := -2147483648 ≤ n ∧ n ≤ 2147483647

instance (n : ℤ) : Decidable (FitsInteger n) := inferInstanceAs (Decidable (_ ∧ _))

theorem fitsInteger_of_le {n : ℕ} (h : n ≤ 2147483647) : FitsInteger n := by
  constructor <;> omega

def FitsText (text : Text) : Prop := Char.ofNat 0 ∉ text

instance (text : Text) : Decidable (FitsText text) := inferInstanceAs (Decidable (¬_))

inductive CollectionErrorCode
  | invalidContract | sourceAuthorizationInactive | invalidTransition | commandNotAvailable
  | retriesExhausted | reservationActive | leaseOrAttemptMismatch | checkpointConflict
  | ordinalGap | ordinalAlreadyCommitted | runStreamSealed | idempotencyKeyReused
  | invalidTerminalReason | terminalPageMissing | completionMismatch
  | completionIdempotencyMismatch | runSetMismatch
deriving DecidableEq

structure CollectionError where
  code : CollectionErrorCode
  statusCode : ℕ
  currentCheckpointRevision : Option ℕ := none
  currentCursor : Option String := none
  expectedPageOrdinal : Option ℕ := none
  existingCommitId : Option UUID := none
deriving DecidableEq

/-- Why a transaction is rolled back: a typed collection error, a value the
    boundary models reject, an operand of the wrong type, a clock value past the
    calendar, or a row the database refuses. -/
inductive Failure
  | collection (e : CollectionError)
  | validation
  | typeError
  | overflowError
  | integrity
deriving DecidableEq

abbrev Result := Except Failure

def fail (code : CollectionErrorCode) (statusCode : ℕ) : Failure :=
  .collection { code := code, statusCode := statusCode }

/-- `astimezone` overflows at a value whose UTC reading has no year. -/
def requireUtc (value : Datetime) : Result Instant := do
  require value.Aware (fail .invalidContract 422)
  require value.HasUtc .overflowError
  return value.instant

/-- `format_utc` of a value known to be aware. -/
def formatUtc (value : Instant) : Text := formatMicroseconds value

theorem requireUtc_eq_ok {d : Datetime} {t : Instant} :
    requireUtc d = .ok t ↔ d.HasUtc ∧ d.instant = t := by
  rw [requireUtc, require_bind, require_bind]
  constructor
  · rintro ⟨_, hutc, h⟩
    exact ⟨hutc, Except.ok.inj h⟩
  · rintro ⟨hutc, rfl⟩
    exact ⟨hutc.1, hutc, rfl⟩

def hashToken (value : String) : Digest := sha256 (encode value)

def tokenMatches (value : String) (expectedHash : Option Digest) : Prop :=
  expectedHash = some (hashToken value)

instance (value : String) (expectedHash : Option Digest) :
    Decidable (tokenMatches value expectedHash) :=
  inferInstanceAs (Decidable (_ = _))

def canonicalJsonHash (nfc : Text → Text) (value : Json) : Digest :=
  sha256 (canonicalBytes nfc value)

end PredictionMarketMonitor.CollectionBase
