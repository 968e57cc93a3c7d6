import PredictionMarketMonitor.ActivationPlans
import PredictionMarketMonitor.Receipts

set_option autoImplicit false

/-!
# Receipts of the source activation

`services/release/source_activation_receipts.py`: a receipt file is accepted when
its bytes are the canonical dump of the value that its closed model reads from them.
-/
namespace PredictionMarketMonitor.ActivationReceipts

open ActivationPlans CanonicalJson CivilTime CodePoints CollectionBase FallibleSteps Sha256
open JsonReader (Document Members loads document members)

def maxReceiptBytes : ℕ := 65536

section Hexadecimal

def hexNumber? (s : Text) : Option ℕ :=
  s.foldlM (fun n c => if c ∈ hexDigits then some (n * 16 + hexDigits.idxOf c) else none) 0

def digest? (s : Text) : Option Digest :=
  if s.length = 64 then (hexNumber? s).map (BitVec.ofNat 256) else none

/-- A hyphenated lowercase identity; no other spelling is the one of a dump. -/
def uuid? (s : Text) : Option UUID :=
  ((hexNumber? (s.filter (· ≠ '-'))).map (BitVec.ofNat 128)).filter (fun u => UUID.str u = s)

theorem hexDigit_value : ∀ d < 16, hexDigits.getD d '0' ∈ hexDigits ∧
    hexDigits.idxOf (hexDigits.getD d '0') = d := by
  decide

theorem hexNumber?_from (n k start : ℕ) :
    (hexString n k).foldlM (fun n c =>
      if c ∈ hexDigits then some (n * 16 + hexDigits.idxOf c) else none) start =
      some (start * 16 ^ k + n % 16 ^ k) := by
  induction k generalizing start with
  | zero => simp [hexString, Nat.mod_one]
  | succ k ih =>
    obtain ⟨hmem, hvalue⟩ := hexDigit_value (n / 16 ^ k % 16) (Nat.mod_lt _ (by decide))
    rw [hexString_succ, List.foldlM_cons, if_pos hmem, hvalue]
    have hrest := ih (start * 16 + n / 16 ^ k % 16)
    rw [Option.bind_eq_bind, Option.bind_some, hrest]
    have hsplit : n % 16 ^ (k + 1) = n % 16 ^ k + 16 ^ k * (n / 16 ^ k % 16) := by
      rw [Nat.pow_succ, Nat.mod_mul]
    rw [hsplit, Nat.pow_succ, Nat.add_mul]
    congr 1
    ring

theorem hexNumber?_hexString (n k : ℕ) : hexNumber? (hexString n k) = some (n % 16 ^ k) := by
  rw [hexNumber?, hexNumber?_from]
  simp

theorem digest?_hexdigest (d : Digest) : digest? (Digest.hexdigest d) = some d := by
  have hlt : d.toNat < 16 ^ 64 := by
    have h := d.isLt
    norm_num at h ⊢
    omega
  have hlength : (Digest.hexdigest d).length = 64 := hexString_length _ _
  rw [digest?, if_pos hlength, Digest.hexdigest, hexNumber?_hexString, Option.map_some,
    Nat.mod_eq_of_lt hlt, BitVec.ofNat_toNat, BitVec.setWidth_eq]

theorem hexdigest_injective : Function.Injective Digest.hexdigest := by
  intro d e h
  have hread := digest?_hexdigest d
  rw [h, digest?_hexdigest] at hread
  exact (Option.some.inj hread).symm

end Hexadecimal

section Loading
variable {α : Type}

/-- A closed model: what it reads from bytes and how its values are dumped. -/
structure ClosedModel (α : Type) where
  validateJson : Bytes → Option α
  canonicalBytes : α → Bytes

/-- `raw.removesuffix(b"\n")`. -/
def removeNewline (raw : Bytes) : Bytes := if raw.getLast? = some 10 then raw.dropLast else raw

def loadReceipt (model : ClosedModel α) (raw : Bytes) : Except Hold α := do
  require (raw.length ≤ maxReceiptBytes) .receiptOversize
  let parsed ← present (model.validateJson raw) .receiptInvalid
  require (removeNewline raw = model.canonicalBytes parsed) .receiptNoncanonical
  return parsed

end Loading

/-- `json.dumps(document, ensure_ascii=False, separators=(",", ":"))` of sorted members. -/
def dumps (document : Json) : Bytes := encodeText (render document)

/-- `hash_document`. -/
def hashDocument (document : Json) : Digest := sha256 (dumps document)

structure ChainReceipt where
  command : Text
  accepted : Bool
  activationNonce : UUID
  reviewedSha : Text
  stateAfter : ActivationTransition
  payloadSha256 : Option Digest
  cadenceAnchorAt : Option Text
  attestationGeneration : Option ℤ
  attestationSha256 : Option Digest
  reason : Option Text
  predecessorReceiptSha256 : Option Digest
  receiptSha256 : Digest
deriving DecidableEq

namespace ChainReceipt

/-- The dumped members in the order of `sort_keys`, with `extra` where
    `receipt_sha256` stands. -/
def fields (r : ChainReceipt) (extra : List (String × Json)) : List (String × Json) :=
  [("accepted", .bool r.accepted),
   ("activation_nonce", UUID.json r.activationNonce),
   ("attestation_generation", .ofOption Json.int r.attestationGeneration),
   ("attestation_sha256", .ofOption Digest.json r.attestationSha256),
   ("cadence_anchor_at", .ofOption Json.str r.cadenceAnchorAt),
   ("command", .str r.command),
   ("payload_sha256", .ofOption Digest.json r.payloadSha256),
   ("predecessor_receipt_sha256", .ofOption Digest.json r.predecessorReceiptSha256),
   ("reason", .ofOption Json.str r.reason)] ++ extra ++
  [("reviewed_sha", .str r.reviewedSha),
   ("schema_version", .int 1),
   ("state_after", .ofString r.stateAfter.value)]

def body (r : ChainReceipt) : Json := .object (r.fields [])

def json (r : ChainReceipt) : Json :=
  .object (r.fields [("receipt_sha256", Digest.json r.receiptSha256)])

def names : List String :=
  ["schema_version", "command", "accepted", "activation_nonce", "reviewed_sha", "state_after",
   "payload_sha256", "cadence_anchor_at", "attestation_generation", "attestation_sha256",
   "reason", "predecessor_receipt_sha256", "receipt_sha256"]

/-- The constraints of the fields and `verify_receipt_hash`. -/
structure Valid (r : ChainReceipt) : Prop where
  command : r.command ≠ []
  reviewedSha : r.reviewedSha.length = 40 ∧ r.reviewedSha.all (· ∈ hexDigits) = true
  generation : ∀ n ∈ r.attestationGeneration, 1 ≤ n
  hash : r.receiptSha256 = hashDocument r.body

instance (r : ChainReceipt) : Decidable r.Valid :=
  decidable_of_iff (r.command ≠ [] ∧ (r.reviewedSha.length = 40 ∧
      r.reviewedSha.all (· ∈ hexDigits) = true) ∧ (∀ n ∈ r.attestationGeneration, 1 ≤ n) ∧
      r.receiptSha256 = hashDocument r.body)
    ⟨fun h => ⟨h.1, h.2.1, h.2.2.1, h.2.2.2⟩, fun h => ⟨h.1, h.2, h.3, h.4⟩⟩

end ChainReceipt

-- The spellings that the model coerces (a number for a string, another form of an
-- identity) are never those of a dump, so only the dumped ones are read here.
section Reading

abbrev JsonValue := Document Text

def textOf : JsonValue → Option Text
  | .str s => scalars? s
  | _ => none

def intOf : JsonValue → Option ℤ
  | .int i => some i
  | _ => none

def boolOf : JsonValue → Option Bool
  | .bool b => some b
  | _ => none

def uuidOf (d : JsonValue) : Option UUID := (textOf d).bind uuid?

def digestOf (d : JsonValue) : Option Digest := (textOf d).bind digest?

def transitions : List ActivationTransition :=
  [.prepared, .bindingWriting, .bindingCommitted, .handshakePassed, .anchorReserved,
   .githubFinalized, .active, .deactivated, .restoreWriting, .restored, .failed]

def transitionOf (d : JsonValue) : Option ActivationTransition :=
  (textOf d).bind (fun s => transitions.find? (fun t => t.value.toList = s))

def nullable {α : Type} (read : JsonValue → Option α) : JsonValue → Option (Option α)
  | .null => some none
  | d => (read d).map some

def member? (ms : Members Text) (name : String) : Option JsonValue :=
  (ms.reverse.find? (fun m => m.1 = str name.toList)).map Prod.snd

def requiredMember {α : Type} (ms : Members Text) (read : JsonValue → Option α) (name : String) :
    Option α := (member? ms name).bind read

/-- An absent member has its default `None`. -/
def optionalMember {α : Type} (ms : Members Text) (read : JsonValue → Option α) (name : String) :
    Option (Option α) :=
  match member? ms name with
  | none => some none
  | some d => nullable read d

def ChainReceipt.ofMembers (ms : Members Text) : Option ChainReceipt := do
  guard (∀ m ∈ ms, ∃ name ∈ names, m.1 = str name.toList)
  let schemaVersion ← requiredMember ms intOf "schema_version"
  guard (schemaVersion = 1)
  let receipt : ChainReceipt := {
    command := ← requiredMember ms textOf "command"
    accepted := ← requiredMember ms boolOf "accepted"
    activationNonce := ← requiredMember ms uuidOf "activation_nonce"
    reviewedSha := ← requiredMember ms textOf "reviewed_sha"
    stateAfter := ← requiredMember ms transitionOf "state_after"
    payloadSha256 := ← optionalMember ms digestOf "payload_sha256"
    cadenceAnchorAt := ← optionalMember ms textOf "cadence_anchor_at"
    attestationGeneration := ← optionalMember ms intOf "attestation_generation"
    attestationSha256 := ← optionalMember ms digestOf "attestation_sha256"
    reason := ← optionalMember ms textOf "reason"
    predecessorReceiptSha256 :=
      ← requiredMember ms (nullable digestOf) "predecessor_receipt_sha256"
    receiptSha256 := ← requiredMember ms digestOf "receipt_sha256" }
  guard receipt.Valid
  return receipt

/-- How many containers inside one another the reader of the models admits. -/
def jsonLevels : ℕ := 200

/-- `ChainReceipt.model_validate_json`. -/
def ChainReceipt.validateJson (raw : Bytes) : Option ChainReceipt :=
  match loads (ε := Unit) id .ok () () jsonLevels raw with
  | .ok (.dict ms) => ChainReceipt.ofMembers ms
  | _ => none

def chainModel : ClosedModel ChainReceipt where
  validateJson := ChainReceipt.validateJson
  canonicalBytes r := dumps r.json

end Reading

inductive ActivationCommand
  | reserve | commit | reprepare | restore
deriving DecidableEq

def ActivationCommand.value : ActivationCommand → String
  | .reserve => "activation-reserve"
  | .commit => "activation-commit"
  | .reprepare => "activation-reprepare"
  | .restore => "activation-restore"

structure ActivationOutput where
  command : ActivationCommand
  accepted : Bool
  activationNonce : UUID
  reviewedSha : Text
  dbNow : Text
  stateBefore : ActivationTransition
  stateAfter : ActivationTransition
  attestationGeneration : ℤ
  attestationSha256 : Digest
  predecessorReceiptSha256 : Digest
  cadenceAnchorAt : Option Text
  reason : Option Text
  receiptSha256 : Digest
deriving DecidableEq

namespace ActivationOutput

/-- The dumped members in the order of `sort_keys`, with `extra` where
    `receipt_sha256` stands. -/
def fields (o : ActivationOutput) (extra : List (String × Json)) : List (String × Json) :=
  [("accepted", .bool o.accepted),
   ("activation_nonce", UUID.json o.activationNonce),
   ("attestation_generation", .int o.attestationGeneration),
   ("attestation_sha256", Digest.json o.attestationSha256),
   ("cadence_anchor_at", .ofOption Json.str o.cadenceAnchorAt),
   ("command", .ofString o.command.value),
   ("db_now", .str o.dbNow),
   ("predecessor_receipt_sha256", Digest.json o.predecessorReceiptSha256),
   ("reason", .ofOption Json.str o.reason)] ++ extra ++
  [("reviewed_sha", .str o.reviewedSha),
   ("schema_version", .int 1),
   ("state_after", .ofString o.stateAfter.value),
   ("state_before", .ofString o.stateBefore.value)]

def body (o : ActivationOutput) : Json := .object (o.fields [])

def json (o : ActivationOutput) : Json :=
  .object (o.fields [("receipt_sha256", Digest.json o.receiptSha256)])

end ActivationOutput

end PredictionMarketMonitor.ActivationReceipts
