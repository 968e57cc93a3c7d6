import PredictionMarketMonitor.DispatchReservations

set_option autoImplicit false

/-!
# Dispatch reservations are claimed and completed once

Over every interleaving of claims, overlapping completions and migrations. A
repeated completion is compared with a receipt computed from the database revision
of that moment.
-/
namespace PredictionMarketMonitor.DispatchOnce

open CanonicalJson CivilTime CollectionBase DispatchReservations FallibleSteps KeyedTable Sha256
open IdentityExchange (GitHubOIDCClaims githubOidcAudience githubOidcIssuer)
open JsonReader (Document document documents itemsDepth members membersDepth)

section Laws

structure DispatchLaws (server : Server) : Prop where
  oneReservation : ∀ r ∈ server.reservations, ∀ r' ∈ server.reservations, ∀ run ∈ r.claimed,
    ∀ run' ∈ r'.claimed, r.repository = r'.repository → run.runId = run'.runId → r = r'
  claimer : ∀ o ∈ server.operations, ∃ r ∈ server.reservations,
    r.receiptSha256 = o.reservationReceiptSha256 ∧ ∃ run ∈ r.claimed, run.runId = o.runId
  oneReceipt : ∀ o ∈ server.operations, ∀ o' ∈ server.operations,
    o.reservationReceiptSha256 = o'.reservationReceiptSha256 → o = o'

/-- Claimed reservations and stored receipts stay as they are. -/
structure Kept (server later : Server) : Prop where
  claimed : ∀ r ∈ server.reservations, r.claimed ≠ none → r ∈ later.reservations
  operations : ∀ o ∈ server.operations, o ∈ later.operations

/-- The verified token names the run and the attempt of the payload. -/
def TokenNames (caller : Caller) (p : WorkflowDispatchClaimRequest) : Prop :=
  ∃ claims ∈ caller.claims, claims.runId = decimal p.runId ∧
    claims.runAttempt = decimal p.runAttempt

/-- An accepted claim takes one free reservation for the run of its token. -/
structure Takes (server next : Server) (call : ClaimCall) (r : Reservation) : Prop where
  stored : r ∈ server.reservations
  named : r.receiptSha256 = call.payload.reservationSha256
  free : r.claimed = none
  taken : r.claim ⟨call.payload.runId, call.payload.runAttempt, call.dbNow⟩ ∈ next.reservations
  others : ∀ r' ∈ server.reservations, r' ≠ r → r' ∈ next.reservations
  token : TokenNames call.caller call.payload

/-- An accepted completion comes from the run that claimed its reservation. -/
structure FromClaimer (server : Server) (call : CompletionCall) (r : Reservation) : Prop where
  stored : r ∈ server.reservations
  named : r.receiptSha256 = call.payload.reservationSha256
  claimer : ∃ run ∈ r.claimed,
    run.runId = call.payload.runId ∧ run.runAttempt = call.payload.runAttempt
  token : TokenNames call.caller call.payload.toWorkflowDispatchClaimRequest

def EventLaws (server next : Server) : Event → Prop
  | .claim call => ∃ r, Takes server next call r
  | .begin call => ∃ r, FromClaimer server call r
  | .finish _ | .abandon _ | .migrate _ => next.reservations = server.reservations

/-- The same body is answered with these bytes and changes nothing. -/
def Repeats (repository : Text) (server : Server) (again : CompletionCall) (bytes : Bytes) : Prop :=
  beginCompletion repository server again = .ok (.replayed bytes) ∧
    step repository server (.begin again) = .ok server

/-- Reservations before any completion: claimed runs are distinct by their index. -/
structure Stored (server : Server) : Prop where
  index : ∀ r ∈ server.reservations, ∀ r' ∈ server.reservations, ∀ run ∈ r.claimed,
    ∀ run' ∈ r'.claimed, r.repository = r'.repository → run.runId = run'.runId → r = r'
  operations : server.operations.rows = []
  pending : server.pending = []

end Laws

section Receipts
variable {p : WorkflowOperationCompleteRequest} {r : Reservation}

def operationKeys : List String :=
  ["schema_version", "command", "reviewed_sha", "approved_plan_sha256", "approval_round_id",
    "approval_launch_sha256s", "activation_nonce", "dispatch_nonce", "attempt", "accepted",
    "terminal_for_attempt", "retry_permitted", "predecessor_receipt_sha256",
    "reservation_receipt_sha256", "run_id", "head_sha", "artifact_sha256", "state_before",
    "state_after", "enum_residue", "committed_revision"]

theorem operationFields_keys (revision : Text) :
    (operationFields p r revision).map Prod.fst = operationKeys := rfl

def operationMembers (p : WorkflowOperationCompleteRequest) (r : Reservation) (revision : Text) :
    Fields := (operationFields p r revision).map (fun f => (f.1.toList, f.2))

theorem operationMembers_nodup (revision : Text) :
    ((operationMembers p r revision).map Prod.fst).Nodup := by
  have hkeys : (operationMembers p r revision).map Prod.fst =
      operationKeys.map String.toList := by
    rw [← operationFields_keys revision, operationMembers, List.map_map, List.map_map]
    rfl
  rw [hkeys]
  decide

theorem receiptBytes_eq_ok {v : Json} {bytes : Bytes} (h : receiptBytes v = .ok bytes) :
    Receipts.canonicalize Receipts.receiptLevels (document v : Document Empty) = .ok bytes := by
  rw [receiptBytes] at h
  cases hresult : Receipts.canonicalize Receipts.receiptLevels (document v : Document Empty) with
  | error e =>
    rw [hresult] at h
    cases h
  | ok other =>
    rw [hresult] at h
    have hsame : other = bytes := Except.ok.inj h
    rw [hsame]

theorem encode_member {fields : Fields} {bytes : Bytes} {k : Text} {v : Json}
    (h : receiptBytes (.dict fields) = .ok bytes) (hmem : (k, v) ∈ fields) :
    ∃ text, Receipts.encode 1 (document v : Document Empty) = .ok text := by
  obtain ⟨text, htext, _⟩ := bind_eq_ok.mp (receiptBytes_eq_ok h)
  rw [document, Receipts.encode] at htext
  obtain ⟨_, htext⟩ := require_bind.mp htext
  have hmembers : ∀ fs : Fields, (k, v) ∈ fs → (CodePoints.str k,
      Receipts.encode 1 (document v : Document Empty)) ∈
        Receipts.encodeMembers 1 (members fs : JsonReader.Members Empty) := by
    intro fs
    induction fs with
    | nil => simp
    | cons q fs ih =>
      obtain ⟨k', v'⟩ := q
      rw [members, Receipts.encodeMembers, List.mem_cons, List.mem_cons]
      rintro (heq | hfs)
      · obtain ⟨rfl, rfl⟩ := Prod.mk.inj heq
        exact .inl rfl
      · exact .inr (ih hfs)
  exact (Receipts.encodeMapping_eq_ok htext _ (hmembers fields hmem)).2

theorem safe_of_encode {i : ℤ} {text : Text}
    (h : Receipts.encode 1 (document (.int i) : Document Empty) = .ok text) :
    i.natAbs ≤ Receipts.maxSafeInteger := by
  rw [document, Receipts.encode, Receipts.encodeInteger] at h
  split_ifs at h with hlarge
  omega

theorem launches_safe (launches : List Text) :
    Receipts.SafeItems (launches.map Json.str) := by
  induction launches with
  | nil => trivial
  | cons launch launches ih => exact ⟨trivial, ih⟩

theorem launches_depth (launches : List Text) :
    itemsDepth (documents (launches.map Json.str) : List (Document Empty)) = 0 := by
  induction launches with
  | nil => rfl
  | cons launch launches ih => exact (max_eq_right (Nat.zero_le _)).trans ih

theorem operation_depth (revision : Text) :
    (document (.object (operationFields p r revision)) : Document Empty).depth ≤
      Receipts.receiptLevels := by
  simp [Json.object, operationFields, document, members, Document.depth, membersDepth,
    launches_depth, Receipts.receiptLevels, UUID.json, Digest.json]

theorem operation_safe {revision : Text} {bytes : Bytes}
    (h : receiptBytes (.object (operationFields p r revision)) = .ok bytes) (other : Text) :
    Receipts.SafeIntegers (.object (operationFields p r other)) := by
  obtain ⟨_, hattempt⟩ := encode_member (k := "attempt".toList) (v := .int r.attempt) h
    (by simp [operationFields])
  obtain ⟨_, hrun⟩ := encode_member (k := "run_id".toList) (v := .int p.runId) h
    (by simp [operationFields])
  have hattempt := safe_of_encode hattempt
  have hrun := safe_of_encode hrun
  simp only [Json.object, operationFields, List.map_cons, List.map_nil, Receipts.SafeIntegers,
    Receipts.SafeFields, UUID.json, Digest.json, and_true, true_and]
  exact ⟨by decide, launches_safe _, hattempt, hrun⟩

theorem arrange_operation {revision other : Text}
    (h : Receipts.arrange (.object (operationFields p r revision)) =
      Receipts.arrange (.object (operationFields p r other))) : revision = other := by
  have hperm := (KeySorting.sortBy_perm (fun q : Text × Json => Receipts.utf16Order q.1)
    (Receipts.arrangeFields (operationMembers p r revision))).symm.trans
    ((List.Perm.of_eq (Json.dict.inj h)).trans (KeySorting.sortBy_perm _ _))
  have hmine : ("committed_revision".toList, Json.str revision) ∈
      Receipts.arrangeFields (operationMembers p r revision) :=
    Receipts.mem_arrangeFields.mpr ⟨.str revision, by simp [operationMembers, operationFields], rfl⟩
  obtain ⟨w, hw, harranged⟩ := Receipts.mem_arrangeFields.mp (hperm.mem_iff.mp hmine)
  have hother : ("committed_revision".toList, Json.str other) ∈ operationMembers p r other := by
    simp [operationMembers, operationFields]
  have hsame := List.inj_on_of_nodup_map (operationMembers_nodup other) hw hother rfl
  obtain ⟨_, rfl⟩ := Prod.mk.inj hsame
  exact (Json.str.inj harranged).symm

theorem operationReceipt_revision {revision other : Text} {bytes : Bytes}
    (h : operationReceipt p r revision = .ok bytes) (k : operationReceipt p r other = .ok bytes) :
    revision = other := by
  obtain ⟨_, h⟩ := require_bind.mp h
  obtain ⟨_, k⟩ := require_bind.mp k
  have hbytes := receiptBytes_eq_ok h
  have kbytes := receiptBytes_eq_ok k
  rw [Receipts.canonicalize_document (operation_safe h _) (operation_depth _)] at hbytes
  rw [Receipts.canonicalize_document (operation_safe h _) (operation_depth _)] at kbytes
  rw [← Except.ok.inj kbytes] at hbytes
  exact arrange_operation (render_injective (encodeText_injective (Except.ok.inj hbytes)))

end Receipts

section Calls
variable {repository : Text} {server next : Server}

theorem authorize_names {caller : Caller} {p : WorkflowDispatchClaimRequest} {u : Unit}
    (h : authorize repository caller p = .ok u) : TokenNames caller p := by
  obtain ⟨claims, hclaims, h⟩ := bind_eq_ok.mp h
  obtain ⟨_, h⟩ := require_bind.mp h
  obtain ⟨subject, _, h⟩ := bind_eq_ok.mp h
  obtain ⟨_, h⟩ := require_bind.mp h
  have hsame := require_eq_ok.mp h
  exact ⟨claims, present_eq_ok.mp hclaims, hsame.2.2.2.2.2.2.1, hsame.2.2.2.2.2.2.2.1⟩

theorem claim_eq_ok {call : ClaimCall} (h : claim repository server call = .ok next) :
    ∃ row, server.reservations.find? call.payload.reservationSha256 = some row ∧
      Claimable row call.payload ∧ TokenNames call.caller call.payload ∧
      (∀ r ∈ server.reservations, ∀ run ∈ r.claimed,
        r.repository = row.repository → run.runId ≠ call.payload.runId) ∧
      next.reservations = server.reservations.update call.payload.reservationSha256
        (fun r => r.claim ⟨call.payload.runId, call.payload.runAttempt, call.dbNow⟩)
        (Reservation.receiptSha256_claim
          ⟨call.payload.runId, call.payload.runAttempt, call.dbNow⟩) ∧
      next.operations = server.operations ∧ next.pending = server.pending := by
  obtain ⟨u, hauthorized, h⟩ := bind_eq_ok.mp h
  obtain ⟨_, h⟩ := require_bind.mp h
  obtain ⟨row, hrow, h⟩ := bind_eq_ok.mp h
  obtain ⟨hindex, h⟩ := require_bind.mp h
  obtain ⟨receipt, _, h⟩ := bind_eq_ok.mp h
  obtain ⟨chain, _, h⟩ := bind_eq_ok.mp h
  obtain rfl := Except.ok.inj h
  obtain ⟨hfind, hclaimable⟩ := Option.filter_eq_some_iff.mp (present_eq_ok.mp hrow)
  exact ⟨row, hfind, of_decide_eq_true hclaimable, authorize_names hauthorized, hindex, rfl, rfl,
    rfl⟩

/-- The reservation, the body and the receipt of a completion fit together. -/
structure Ready (server : Server) (q : PendingCompletion) : Prop where
  row : q.row ∈ server.reservations
  key : q.row.receiptSha256 = q.payload.reservationSha256
  completable : Completable q.row q.payload.toWorkflowDispatchClaimRequest
  command : q.payload.command ∈ allowedCommands q.payload.workflow
  columns : FitsColumns q.payload.runId q.payload.runAttempt
  receipt : operationReceipt q.payload q.row q.currentRevision = .ok q.canonical

theorem beginCompletion_ready {call : CompletionCall} {outcome : Completing}
    (h : beginCompletion repository server call = .ok outcome) :
    ∃ q, Ready server q ∧ q.payload = call.payload ∧ q.currentRevision = server.revision ∧
      TokenNames call.caller call.payload.toWorkflowDispatchClaimRequest ∧
      ((storedReceipt server call.payload.reservationSha256 = .ok none ∧
          outcome = .inserting q) ∨
        (storedReceipt server call.payload.reservationSha256 = .ok (some q.canonical) ∧
          outcome = .replayed q.canonical)) := by
  obtain ⟨hcommand, h⟩ := require_bind.mp h
  obtain ⟨u, hauthorized, h⟩ := bind_eq_ok.mp h
  obtain ⟨hcolumns, h⟩ := require_bind.mp h
  obtain ⟨row, hrow, h⟩ := bind_eq_ok.mp h
  obtain ⟨canonical, hcanonical, h⟩ := bind_eq_ok.mp h
  obtain ⟨stored, hstored, h⟩ := bind_eq_ok.mp h
  obtain ⟨hfind, hcompletable⟩ := Option.filter_eq_some_iff.mp (present_eq_ok.mp hrow)
  obtain ⟨hmem, hkey⟩ := Table.find?_eq_some.mp hfind
  refine ⟨⟨call.payload, row, server.revision, canonical⟩, ⟨hmem, hkey,
    of_decide_eq_true hcompletable, hcommand, hcolumns, hcanonical⟩, rfl, rfl,
    authorize_names hauthorized, ?_⟩
  cases stored with
  | none => exact .inl ⟨hstored, (Except.ok.inj h).symm⟩
  | some bytes =>
    obtain ⟨rfl, h⟩ := require_bind.mp h
    exact .inr ⟨hstored, (Except.ok.inj h).symm⟩

/-- A body whose reservation has a stored receipt is answered with it exactly when the
    receipt of this moment is the stored one. -/
theorem beginCompletion_replayed {call : CompletionCall} {q : PendingCompletion} {bytes : Bytes}
    (hready : Ready server q) (hpayload : call.payload = q.payload)
    (hauthorized : authorize repository call.caller
      call.payload.toWorkflowDispatchClaimRequest = .ok ())
    (hstored : storedReceipt server q.payload.reservationSha256 = .ok (some bytes)) :
    beginCompletion repository server call = .ok (.replayed bytes) ↔
      operationReceipt q.payload q.row server.revision = .ok bytes := by
  have hfound : present ((server.reservations.find? q.payload.reservationSha256).filter
      (fun r => Completable r q.payload.toWorkflowDispatchClaimRequest)) Refusal.reservationRejected =
      .ok q.row := by
    rw [present_eq_ok, Option.filter_eq_some_iff]
    exact ⟨Table.find?_eq_some.mpr ⟨hready.row, hready.key⟩, decide_eq_true hready.completable⟩
  rw [hpayload] at hauthorized
  rw [beginCompletion]
  dsimp only
  rw [hpayload, require_of hready.command, ok_bind, hauthorized, ok_bind,
    require_of hready.columns, ok_bind, hfound, ok_bind]
  cases hreceipt : operationReceipt q.payload q.row server.revision with
  | error e => simp [error_bind]
  | ok canonical =>
    rw [ok_bind, hstored, ok_bind]
    dsimp only
    rw [require_bind, Except.ok.injEq]
    constructor
    · rintro ⟨rfl, _⟩
      rfl
    · rintro rfl
      exact ⟨rfl, rfl⟩

theorem finishCompletion_eq_ok {q : PendingCompletion}
    (h : finishCompletion server q = .ok next) :
    (∀ o ∈ server.operations, o.identity ≠ (operationRow q).identity) ∧
      server.operations.insert? (operationRow q) = some next.operations ∧
      next.reservations = server.reservations ∧ next.pending = server.pending := by
  obtain ⟨hidentity, h⟩ := require_bind.mp h
  obtain ⟨operations, hoperations, h⟩ := bind_eq_ok.mp h
  obtain ⟨chain, _, h⟩ := bind_eq_ok.mp h
  obtain rfl := Except.ok.inj h
  exact ⟨hidentity, present_eq_ok.mp hoperations, rfl, rfl⟩

theorem finishCompletion_of {q : PendingCompletion}
    (hidentity : ∀ o ∈ server.operations, o.identity ≠ (operationRow q).identity)
    (hoperation : server.operations.find? (sha256 q.canonical) = none)
    (hpredecessor : ∃ row ∈ server.chain, row.receiptSha256 = q.row.receiptSha256)
    (hchain : server.chain.find? (sha256 q.canonical) = none) :
    ∃ next, finishCompletion server q = .ok next ∧ operationRow q ∈ next.operations ∧
      next.revision = server.revision := by
  obtain ⟨operations, hoperations⟩ := @Table.exists_insert _ _ _ _ server.operations
    (operationRow q) hoperation
  obtain ⟨chain, hrow⟩ := @Table.exists_insert _ _ _ _ server.chain
    ⟨sha256 q.canonical, q.canonical, q.payload.command, some q.row.receiptSha256⟩ hchain
  have hinsert : insertChain server.chain
      ⟨sha256 q.canonical, q.canonical, q.payload.command, some q.row.receiptSha256⟩ =
      .ok chain := by
    rw [insertChain, require_of, ok_bind, hrow, present]
    intro id hid
    rw [← Option.some.inj hid]
    exact hpredecessor
  refine ⟨{ server with operations := operations, chain := chain }, ?_,
    (Table.mem_insert hoperations).mpr (.inr rfl), rfl⟩
  have hguard : (∀ o ∈ server.operations.rows, o.identity ≠ (operationRow q).identity) := hidentity
  rw [finishCompletion, require_of hguard, ok_bind, hoperations, present, ok_bind, hinsert]
  rfl

end Calls

section Invariants
variable {repository : Text} {server next : Server}

/-- The reservation behind a stored receipt, with the columns of its identity. -/
structure Behind (o : OperationReceipt) (r : Reservation) : Prop where
  key : r.receiptSha256 = o.reservationReceiptSha256
  binding : r.activationNonce = o.activationNonce ∧ r.dispatchNonce = o.dispatchNonce ∧
    r.attempt = o.attempt
  claimer : ∃ run ∈ r.claimed, run.runId = o.runId

structure Consistent (server : Server) : Prop where
  oneReservation : ∀ r ∈ server.reservations, ∀ r' ∈ server.reservations, ∀ run ∈ r.claimed,
    ∀ run' ∈ r'.claimed, r.repository = r'.repository → run.runId = run'.runId → r = r'
  behind : ∀ o ∈ server.operations, ∃ r ∈ server.reservations, Behind o r
  identity : ∀ o ∈ server.operations, ∀ o' ∈ server.operations, o.identity = o'.identity → o = o'
  ready : ∀ q ∈ server.pending, Ready server q

theorem consistent_stored (h : Stored server) : Consistent server where
  oneReservation := h.index
  behind := by
    intro o ho
    rw [Table.mem_def, h.operations] at ho
    cases ho
  identity := by
    intro o ho
    rw [Table.mem_def, h.operations] at ho
    cases ho
  ready := by
    intro q hq
    rw [h.pending] at hq
    cases hq

theorem identity_of_reservation (hinv : Consistent server) {o o' : OperationReceipt}
    (ho : o ∈ server.operations) (ho' : o' ∈ server.operations)
    (h : o.reservationReceiptSha256 = o'.reservationReceiptSha256) : o.identity = o'.identity := by
  obtain ⟨r, hr, hbehind⟩ := hinv.behind o ho
  obtain ⟨r', hr', hbehind'⟩ := hinv.behind o' ho'
  have hsame : r = r' := Table.eq_of_key hr hr' (by rw [hbehind.key, h, hbehind'.key])
  subst hsame
  obtain ⟨run, hrun, hid⟩ := hbehind.claimer
  obtain ⟨run', hrun', hid'⟩ := hbehind'.claimer
  have hrunSame : run = run' := Option.some.inj (hrun.symm.trans hrun')
  rw [OperationReceipt.identity, OperationReceipt.identity, ← hbehind.binding.1,
    ← hbehind.binding.2.1, ← hbehind.binding.2.2, ← hid, hbehind'.binding.1, hbehind'.binding.2.1,
    hbehind'.binding.2.2, hrunSame, hid']

theorem laws_of_consistent (hinv : Consistent server) : DispatchLaws server where
  oneReservation := hinv.oneReservation
  claimer := by
    intro o ho
    obtain ⟨r, hr, hbehind⟩ := hinv.behind o ho
    exact ⟨r, hr, hbehind.key, hbehind.claimer⟩
  oneReceipt := fun o ho o' ho' h =>
    hinv.identity o ho o' ho' (identity_of_reservation hinv ho ho' h)

theorem kept_refl (server : Server) : Kept server server :=
  ⟨fun _ hr _ => hr, fun _ ho => ho⟩

theorem kept_of_tables (hreservations : next.reservations = server.reservations)
    (hoperations : next.operations = server.operations) : Kept server next where
  claimed := by
    intro r hr _
    rw [hreservations]
    exact hr
  operations := by
    intro o ho
    rw [hoperations]
    exact ho

theorem kept_trans {mid : Server} (h : Kept server mid) (k : Kept mid next) : Kept server next :=
  ⟨fun r hr hclaimed => k.claimed r (h.claimed r hr hclaimed) hclaimed,
    fun o ho => k.operations o (h.operations o ho)⟩

theorem ready_kept {q : PendingCompletion} (h : Ready server q) (hkept : Kept server next) :
    Ready next q := by
  obtain ⟨run, hrun, _⟩ := h.completable.2
  have hclaimed : q.row.claimed ≠ none := by
    rw [Option.mem_def.mp hrun]
    exact Option.some_ne_none _
  exact { h with row := hkept.claimed q.row h.row hclaimed }

theorem behind_kept {o : OperationReceipt} (h : ∃ r ∈ server.reservations, Behind o r)
    (hkept : Kept server next) : ∃ r ∈ next.reservations, Behind o r := by
  obtain ⟨r, hr, hbehind⟩ := h
  obtain ⟨run, hrun, _⟩ := hbehind.claimer
  have hclaimed : r.claimed ≠ none := by
    rw [Option.mem_def.mp hrun]
    exact Option.some_ne_none _
  exact ⟨r, hkept.claimed r hr hclaimed, hbehind⟩

theorem claim_takes {call : ClaimCall} (h : claim repository server call = .ok next) :
    ∃ r, Takes server next call r := by
  obtain ⟨row, hfind, hclaimable, htoken, _, hreservations, _⟩ := claim_eq_ok h
  obtain ⟨hmem, hkey⟩ := Table.find?_eq_some.mp hfind
  refine ⟨row, hmem, hkey, hclaimable.2.2.2, ?_, ?_, htoken⟩
  · rw [hreservations]
    exact Table.mem_update.mpr (.inl ⟨row, hmem, hkey, rfl⟩)
  · intro r' hr' hne
    rw [hreservations]
    refine Table.mem_update.mpr (.inr ⟨hr', fun hkey' => hne ?_⟩)
    exact Table.eq_of_key hr' hmem (hkey'.trans hkey.symm)

theorem kept_claim {call : ClaimCall} (h : claim repository server call = .ok next) :
    Kept server next := by
  obtain ⟨r, htakes⟩ := claim_takes h
  obtain ⟨_, _, _, _, _, _, hoperations, _⟩ := claim_eq_ok h
  refine ⟨fun r' hr' hclaimed => htakes.others r' hr' ?_, fun o ho => ?_⟩
  · rintro rfl
    exact hclaimed htakes.free
  · rw [hoperations]
    exact ho

theorem kept_finish {q : PendingCompletion} (h : finishCompletion server q = .ok next) :
    Kept server next := by
  obtain ⟨_, hinsert, hreservations, _⟩ := finishCompletion_eq_ok h
  refine ⟨fun r hr _ => ?_, fun o ho => (Table.mem_insert hinsert).mpr (.inl ho)⟩
  rw [hreservations]
  exact hr

/-- Every accepted event keeps what is claimed and stored. -/
theorem kept_step {e : Event} (h : step repository server e = .ok next) : Kept server next := by
  cases e with
  | claim call => exact kept_claim h
  | begin call =>
    obtain ⟨outcome, _, h⟩ := bind_eq_ok.mp h
    cases outcome with
    | replayed canonical =>
      obtain rfl := Except.ok.inj h
      exact kept_refl server
    | inserting q =>
      obtain rfl := Except.ok.inj h
      exact kept_of_tables rfl rfl
  | finish n =>
    obtain ⟨q, _, h⟩ := bind_eq_ok.mp h
    cases hfinish : finishCompletion server q with
    | ok done =>
      rw [hfinish] at h
      obtain rfl := Except.ok.inj h
      exact kept_trans (kept_finish hfinish) (kept_of_tables rfl rfl)
    | error e =>
      rw [hfinish] at h
      obtain rfl := Except.ok.inj h
      exact kept_of_tables rfl rfl
  | abandon n =>
    obtain rfl := Except.ok.inj h
    exact kept_of_tables rfl rfl
  | migrate revision =>
    obtain rfl := Except.ok.inj h
    exact kept_of_tables rfl rfl

theorem kept_run (server : Server) (events : List Event) :
    Kept server (run (step repository) server events) :=
  run_relation kept_refl (fun _ _ _ => kept_trans) (fun _ _ _ _ _ => trivial)
    (fun _ _ _ _ h => kept_step h) events trivial

theorem consistent_claim {call : ClaimCall} (hinv : Consistent server)
    (h : claim repository server call = .ok next) : Consistent next := by
  have hkept := kept_claim h
  obtain ⟨row, hfind, _, _, hindex, hreservations, hoperations, hpending⟩ := claim_eq_ok h
  obtain ⟨hmem, hkey⟩ := Table.find?_eq_some.mp hfind
  have hnew : ∀ r ∈ next.reservations, (r ∈ server.reservations ∧ r.receiptSha256 ≠
      call.payload.reservationSha256) ∨
      r = row.claim ⟨call.payload.runId, call.payload.runAttempt, call.dbNow⟩ := by
    intro r hr
    rw [hreservations] at hr
    rcases Table.mem_update.mp hr with ⟨a, ha, hakey, rfl⟩ | hold
    · rw [Table.eq_of_key ha hmem (hakey.trans hkey.symm)]
      exact .inr rfl
    · exact .inl hold
  -- the run that claims has claimed nothing before in this repository
  have hfree : ∀ r ∈ server.reservations, ∀ run ∈ r.claimed, r.repository = row.repository →
      run.runId ≠ call.payload.runId := hindex
  refine ⟨?_, ?_, ?_, ?_⟩
  · intro r hr r' hr' run hrun run' hrun' hrepository hid
    rcases hnew r hr with ⟨hold, _⟩ | rfl
    · rcases hnew r' hr' with ⟨hold', _⟩ | rfl
      · exact hinv.oneReservation r hold r' hold' run hrun run' hrun' hrepository hid
      · obtain rfl := Option.some.inj hrun'
        exact absurd hid (hfree r hold run hrun hrepository)
    · obtain rfl := Option.some.inj hrun
      rcases hnew r' hr' with ⟨hold', _⟩ | rfl
      · exact absurd hid.symm (hfree r' hold' run' hrun' hrepository.symm)
      · rfl
  · intro o ho
    rw [hoperations] at ho
    exact behind_kept (hinv.behind o ho) hkept
  · rw [hoperations]
    exact hinv.identity
  · intro q hq
    rw [hpending] at hq
    exact ready_kept (hinv.ready q hq) hkept

theorem consistent_finish {q : PendingCompletion} (hinv : Consistent server)
    (hready : Ready server q) (h : finishCompletion server q = .ok next) : Consistent next := by
  have hkept := kept_finish h
  obtain ⟨hidentity, hinsert, hreservations, hpending⟩ := finishCompletion_eq_ok h
  refine ⟨?_, ?_, ?_, ?_⟩
  · rw [hreservations]
    exact hinv.oneReservation
  · intro o ho
    rcases (Table.mem_insert hinsert).mp ho with ho | rfl
    · exact behind_kept (hinv.behind o ho) hkept
    · rw [hreservations]
      obtain ⟨run, hrun, hid, _⟩ := hready.completable.2
      exact ⟨q.row, hready.row, rfl, ⟨rfl, rfl, rfl⟩, run, hrun, hid⟩
  · intro o ho o' ho' hsame
    rcases (Table.mem_insert hinsert).mp ho with hold | rfl
    · rcases (Table.mem_insert hinsert).mp ho' with hold' | rfl
      · exact hinv.identity o hold o' hold' hsame
      · exact absurd hsame (hidentity o hold)
    · rcases (Table.mem_insert hinsert).mp ho' with hold' | rfl
      · exact absurd hsame.symm (hidentity o' hold')
      · rfl
  · intro p hp
    rw [hpending] at hp
    exact ready_kept (hinv.ready p hp) hkept

theorem consistent_withoutPending (hinv : Consistent server) (n : ℕ) :
    Consistent (server.withoutPending n) :=
  ⟨hinv.oneReservation, hinv.behind, hinv.identity,
    fun q hq => { hinv.ready q (List.mem_of_mem_eraseIdx hq) with }⟩

/-- One accepted event keeps the invariant. -/
theorem consistent_step {e : Event} (hinv : Consistent server)
    (h : step repository server e = .ok next) : Consistent next := by
  cases e with
  | claim call => exact consistent_claim hinv h
  | begin call =>
    obtain ⟨outcome, houtcome, h⟩ := bind_eq_ok.mp h
    obtain ⟨q, hready, _, _, _, hcases⟩ := beginCompletion_ready houtcome
    rcases hcases with ⟨_, rfl⟩ | ⟨_, rfl⟩
    · obtain rfl := Except.ok.inj h
      refine ⟨hinv.oneReservation, hinv.behind, hinv.identity, fun p hp => ?_⟩
      rcases List.mem_append.mp hp with hp | hp
      · exact { hinv.ready p hp with }
      · rw [List.mem_singleton.mp hp]
        exact { hready with }
    · obtain rfl := Except.ok.inj h
      exact hinv
  | finish n =>
    obtain ⟨q, hq, h⟩ := bind_eq_ok.mp h
    have hready := hinv.ready q (List.mem_of_getElem? (present_eq_ok.mp hq))
    cases hfinish : finishCompletion server q with
    | ok done =>
      rw [hfinish] at h
      obtain rfl := Except.ok.inj h
      exact consistent_withoutPending (consistent_finish hinv hready hfinish) n
    | error e =>
      rw [hfinish] at h
      obtain rfl := Except.ok.inj h
      exact consistent_withoutPending hinv n
  | abandon n =>
    obtain rfl := Except.ok.inj h
    exact consistent_withoutPending hinv n
  | migrate revision =>
    obtain rfl := Except.ok.inj h
    exact ⟨hinv.oneReservation, hinv.behind, hinv.identity, fun q hq =>
      { hinv.ready q hq with }⟩

theorem consistent_run (hinv : Consistent server) (events : List Event) :
    Consistent (run (step repository) server events) :=
  run_invariant (fun _ _ _ hs h => consistent_step hs h) events hinv

theorem eventLaws_step {e : Event} (h : step repository server e = .ok next) :
    EventLaws server next e := by
  cases e with
  | claim call => exact claim_takes h
  | begin call =>
    obtain ⟨outcome, houtcome, _⟩ := bind_eq_ok.mp h
    obtain ⟨q, hready, hpayload, _, htoken, _⟩ := beginCompletion_ready houtcome
    have hkey := hready.key
    have hclaimer := hready.completable.2
    rw [hpayload] at hkey hclaimer
    exact ⟨q.row, hready.row, hkey, hclaimer, htoken⟩
  | finish n =>
    obtain ⟨q, _, h⟩ := bind_eq_ok.mp h
    cases hfinish : finishCompletion server q with
    | ok done =>
      rw [hfinish] at h
      obtain rfl := Except.ok.inj h
      exact (finishCompletion_eq_ok hfinish).2.2.1
    | error e =>
      rw [hfinish] at h
      obtain rfl := Except.ok.inj h
      rfl
  | abandon n =>
    obtain rfl := Except.ok.inj h
    rfl
  | migrate revision =>
    obtain rfl := Except.ok.inj h
    rfl

end Invariants

section Repetition
variable {repository : Text} {server next : Server}

theorem eq_singleton {α : Type} {l : List α} {a : α} (hnodup : l.Nodup) (hmem : a ∈ l)
    (hone : ∀ b ∈ l, b = a) : l = [a] := by
  cases l with
  | nil => cases hmem
  | cons b rest =>
    have hb := hone b (by simp)
    subst hb
    have hrest : rest = [] := by
      refine List.eq_nil_iff_forall_not_mem.mpr fun c hc => ?_
      have hsame := hone c (by simp [hc])
      subst hsame
      exact (List.nodup_cons.mp hnodup).1 hc
    rw [hrest]

theorem storedReceipt_of_mem (hinv : Consistent server) {o : OperationReceipt}
    (ho : o ∈ server.operations) :
    storedReceipt server o.reservationReceiptSha256 = .ok (some o.canonicalReceipt) := by
  have hrows : server.operations.rows.filter (fun o' => o'.reservationReceiptSha256 =
      o.reservationReceiptSha256) = [o] := by
    refine eq_singleton ((List.Nodup.of_map _ server.operations.distinct).filter _)
      (List.mem_filter.mpr ⟨ho, decide_eq_true rfl⟩) fun o' ho' => ?_
    obtain ⟨hmem, hkey⟩ := List.mem_filter.mp ho'
    exact (laws_of_consistent hinv).oneReceipt o' hmem o ho (of_decide_eq_true hkey)
  rw [storedReceipt, hrows]

theorem mem_of_storedReceipt {key : Digest} {bytes : Bytes}
    (h : storedReceipt server key = .ok (some bytes)) :
    ∃ o ∈ server.operations, o.reservationReceiptSha256 = key ∧ o.canonicalReceipt = bytes := by
  rw [storedReceipt] at h
  split at h
  · cases h
  · rename_i o hrows
    have hmem : o ∈ server.operations.rows.filter (fun o => o.reservationReceiptSha256 = key) := by
      rw [hrows]
      exact List.mem_singleton_self o
    obtain ⟨ho, hkey⟩ := List.mem_filter.mp hmem
    exact ⟨o, ho, of_decide_eq_true hkey, Option.some.inj (Except.ok.inj h)⟩
  · cases h

/-- In a later state the body is answered with the stored bytes exactly when the
    revision is the one that they were computed at. -/
theorem repeats_iff {q : PendingCompletion} (hinv : Consistent next) (hready : Ready next q)
    {o : OperationReceipt} (ho : o ∈ next.operations)
    (hkey : o.reservationReceiptSha256 = q.payload.reservationSha256)
    (hbytes : o.canonicalReceipt = q.canonical) {again : CompletionCall}
    (hpayload : again.payload = q.payload)
    (hauthorized : authorize repository again.caller
      again.payload.toWorkflowDispatchClaimRequest = .ok ()) :
    Repeats repository next again q.canonical ↔ next.revision = q.currentRevision := by
  have hstored := storedReceipt_of_mem hinv ho
  rw [hkey, hbytes] at hstored
  have hanswer := beginCompletion_replayed hready hpayload hauthorized hstored
  constructor
  · intro h
    exact operationReceipt_revision (hanswer.mp h.1) hready.receipt
  · intro h
    have hreplayed : beginCompletion repository next again = .ok (.replayed q.canonical) := by
      rw [hanswer, h]
      exact hready.receipt
    exact ⟨hreplayed, by rw [step, hreplayed]; rfl⟩

end Repetition

section Results
variable {repository : Text} {server : Server}

/-- In every interleaving a reservation is claimed once and completed once, by the run
    of the token, and a repeated completion gets the stored bytes exactly while the
    database revision is the one that its completion has read. -/
theorem dispatch_once (hstored : Stored server) (pre : List Event) :
    let here := run (step repository) server pre
    DispatchLaws here ∧
    (∀ e next, step repository here e = .ok next → EventLaws here next e ∧ Kept here next) ∧
    (∀ n q next, here.pending[n]? = some q → finishCompletion here q = .ok next →
      ∀ (later : List Event) (again : CompletionCall),
        again.payload = q.payload →
        authorize repository again.caller again.payload.toWorkflowDispatchClaimRequest = .ok () →
        (Repeats repository (run (step repository) (next.withoutPending n) later) again q.canonical ↔
          (run (step repository) (next.withoutPending n) later).revision = q.currentRevision)) ∧
    (∀ call bytes, beginCompletion repository here call = .ok (.replayed bytes) →
      ∀ (later : List Event) (again : CompletionCall),
        again.payload = call.payload →
        authorize repository again.caller again.payload.toWorkflowDispatchClaimRequest = .ok () →
        (Repeats repository (run (step repository) here later) again bytes ↔
          (run (step repository) here later).revision = here.revision)) := by
  intro here
  have hinv : Consistent here := consistent_run (consistent_stored hstored) pre
  refine ⟨laws_of_consistent hinv, fun e next h => ⟨eventLaws_step h, kept_step h⟩, ?_, ?_⟩
  · intro n q next hq hfinish later again hpayload hauthorized
    have hready := hinv.ready q (List.mem_of_getElem? hq)
    have hnext := consistent_withoutPending (consistent_finish hinv hready hfinish) n
    obtain ⟨_, hinsert, _, _⟩ := finishCompletion_eq_ok hfinish
    have hdone : operationRow q ∈ (next.withoutPending n).operations :=
      (Table.mem_insert hinsert).mpr (.inr rfl)
    have hkept := @kept_run repository (next.withoutPending n) later
    have hstart : Ready (next.withoutPending n) q := { ready_kept hready (kept_finish hfinish) with }
    exact repeats_iff (consistent_run hnext later) (ready_kept hstart hkept)
      (hkept.operations _ hdone) hready.key rfl hpayload hauthorized
  · intro call bytes hreplayed later again hpayload hauthorized
    obtain ⟨q, hready, hsame, hrevision, _, hcases⟩ := beginCompletion_ready hreplayed
    rcases hcases with ⟨_, hne⟩ | ⟨hfound, heq⟩
    · cases hne
    · have hbytes : bytes = q.canonical := Completing.replayed.inj heq
      obtain ⟨o, ho, hkey, hcanonical⟩ := mem_of_storedReceipt hfound
      have hkept := @kept_run repository here later
      rw [hbytes, ← hrevision]
      rw [← hsame] at hkey hpayload
      exact repeats_iff (consistent_run hinv later) (ready_kept hready hkept)
        (hkept.operations o ho) hkey hcanonical hpayload hauthorized

end Results

section Sample

def sampleRepository : Text := "owner/monitor".toList

def sampleSha : Text := List.replicate 40 'a'

def sampleHash : Text := List.replicate 64 'b'

def sampleReservation : Reservation where
  receiptSha256 := 7
  reviewedSha := sampleSha
  approvedPlanSha256 := sampleHash
  approvalRoundId := sampleHash
  approvalLaunchSha256s := [sampleHash, sampleHash]
  activationNonce := 1
  dispatchNonce := 2
  repository := sampleRepository
  gitRef := mainRef
  workflowFile := "ci.yml".toList
  eventName := dispatchEvent
  displayTitle := "ci".toList
  headSha := sampleSha
  attempt := 1
  reservedAtDb := seconds 1785542400
  selectionFloorAt := seconds 1785542400
  claimed := none

def sampleServer : Server where
  reservations := ⟨[sampleReservation], List.nodup_singleton _⟩
  operations := Table.empty
  chain := ⟨[⟨7, [], "dispatch-reserve".toList, none⟩], List.nodup_singleton _⟩
  revision := "20260803_0012".toList
  pending := []

def sampleClaims : GitHubOIDCClaims where
  issuer := githubOidcIssuer
  audience := githubOidcAudience
  subject := "repo:owner@10/monitor@20:ref:refs/heads/main".toList
  repository := sampleRepository
  repositoryId := "20".toList
  repositoryOwnerId := "10".toList
  workflowRef := "owner/monitor/.github/workflows/ci.yml@refs/heads/main".toList
  gitRef := mainRef
  headSha := sampleSha
  environment := none
  runId := "123".toList
  runAttempt := "1".toList
  jwtId := "j-1".toList
  issuedAt := 1785542400
  notBefore := 1785542400
  expiresAt := 1785542700

def sampleCaller : Caller := ⟨some sampleClaims, seconds 1785542410⟩

def sampleRequest : WorkflowDispatchClaimRequest where
  repository := sampleRepository
  workflow := "ci.yml".toList
  displayTitle := "ci".toList
  headSha := sampleSha
  approvedPlanSha256 := sampleHash
  activationNonce := 1
  dispatchNonce := 2
  reservationSha256 := 7
  runId := 123
  runAttempt := 1
  environment := none

def sampleClaim : ClaimCall := ⟨sampleCaller, sampleRequest, seconds 1785542410⟩

def sampleCompletion : CompletionCall :=
  ⟨sampleCaller, { sampleRequest with command := "ci".toList, evidenceSha256 := 9 }⟩

def completedRun : List Event := [.claim sampleClaim, .begin sampleCompletion, .finish 0]

theorem sampleServer_stored : Stored sampleServer where
  index := by
    intro r hr r' hr' run hrun
    rw [List.mem_singleton.mp hr] at hrun
    cases hrun
  operations := rfl
  pending := rfl

theorem dispatch_once_sample :
    DispatchLaws (run (step sampleRepository) sampleServer completedRun) :=
  (dispatch_once sampleServer_stored completedRun).1

def claimedReservation : Reservation :=
  sampleReservation.claim ⟨123, 1, seconds 1785542410⟩

def claimedServer : Server :=
  { sampleServer with reservations := ⟨[claimedReservation], List.nodup_singleton _⟩ }

theorem claimedServer_stored : Stored claimedServer where
  index := by
    intro r hr r' hr' _ _ _ _ _ _
    rw [List.mem_singleton.mp hr, List.mem_singleton.mp hr']
  operations := rfl
  pending := rfl

theorem sampleCaller_authorized : authorize sampleRepository sampleCompletion.caller
    sampleCompletion.payload.toWorkflowDispatchClaimRequest = .ok () := by
  decide +kernel

def completionBytes : Bytes :=
  encodeText (render (Receipts.arrange
    (.object (operationFields sampleCompletion.payload claimedReservation sampleServer.revision))))

def pendingCompletion : PendingCompletion :=
  ⟨sampleCompletion.payload, claimedReservation, sampleServer.revision, completionBytes⟩

theorem completionBytes_receipt : operationReceipt sampleCompletion.payload claimedReservation
    sampleServer.revision = .ok completionBytes := by
  have hsafe : Receipts.SafeIntegers (.object (operationFields sampleCompletion.payload
      claimedReservation sampleServer.revision)) := by
    simp only [Json.object, operationFields, List.map_cons, List.map_nil, Receipts.SafeIntegers,
      Receipts.SafeFields, UUID.json, Digest.json, and_true, true_and]
    exact ⟨by decide, launches_safe _, by decide, by decide⟩
  rw [operationReceipt, require_of (by decide), ok_bind, receiptBytes,
    Receipts.canonicalize_document hsafe (operation_depth _)]
  rfl

theorem claimedServer_begin :
    beginCompletion sampleRepository claimedServer sampleCompletion =
      .ok (.inserting pendingCompletion) := by
  have hrow : (claimedServer.reservations.find? 7).filter (fun r =>
      Completable r sampleCompletion.payload.toWorkflowDispatchClaimRequest) =
      some claimedReservation := by decide +kernel
  have hstored : storedReceipt claimedServer 7 = .ok none := rfl
  rw [beginCompletion, require_of (by decide), ok_bind, sampleCaller_authorized, ok_bind,
    require_of (by decide), ok_bind]
  dsimp only
  rw [show sampleCompletion.payload.reservationSha256 = 7 from rfl, hrow, present, ok_bind]
  rw [show claimedServer.revision = sampleServer.revision from rfl, completionBytes_receipt,
    ok_bind, hstored]
  rfl

theorem completionBytes_fresh : sha256 completionBytes ≠ 7 := by
  decide +kernel

def insertingServer : Server := { claimedServer with pending := [pendingCompletion] }

theorem insertingServer_finish : ∃ next,
    finishCompletion insertingServer pendingCompletion = .ok next ∧
      operationRow pendingCompletion ∈ next.operations ∧
      next.revision = sampleServer.revision := by
  have hnone (o : OperationReceipt) : o ∉ insertingServer.operations := Table.not_mem_empty o
  have hchain (row : ChainRow) (h : row ∈ insertingServer.chain) : row.receiptSha256 = 7 := by
    rw [List.mem_singleton.mp h]
  refine finishCompletion_of (fun o ho => absurd ho (hnone o)) ?_ ?_ ?_
  · exact Table.find?_eq_none.mpr fun o ho => absurd ho (hnone o)
  · exact ⟨_, List.mem_singleton_self _, rfl⟩
  · refine Table.find?_eq_none.mpr fun row hrow => ?_
    rw [hchain row hrow]
    exact completionBytes_fresh.symm

theorem claimedServer_step :
    step sampleRepository claimedServer (.begin sampleCompletion) = .ok insertingServer := by
  rw [step, claimedServer_begin]
  rfl

/-- The run inserts its completion at the first revision. -/
theorem claimedServer_run : ∃ done,
    run (step sampleRepository) claimedServer [.begin sampleCompletion, .finish 0] = done ∧
      operationRow pendingCompletion ∈ done.operations ∧
      done.revision = sampleServer.revision := by
  obtain ⟨next, hfinish, hdone, hrevision⟩ := insertingServer_finish
  have hpending : insertingServer.pending[0]? = some pendingCompletion := rfl
  have hstep : step sampleRepository insertingServer (.finish 0) = .ok (next.withoutPending 0) := by
    rw [step, hpending, present, ok_bind, hfinish]
    rfl
  exact ⟨next.withoutPending 0, by
    rw [run_cons, attempt_of_ok claimedServer_step, run_cons, attempt_of_ok hstep, run_nil],
    hdone, hrevision⟩

theorem claimedServer_ready : Ready claimedServer pendingCompletion := by
  obtain ⟨q, hready, _, _, _, hcases⟩ := beginCompletion_ready claimedServer_begin
  rcases hcases with ⟨_, heq⟩ | ⟨_, hne⟩
  · rw [Completing.inserting.inj heq]
    exact hready
  · cases hne

/-- The stored completion is repeated, but not behind a migration. -/
theorem migrated_completion_refused : Stored claimedServer ∧ ∃ bytes,
    Repeats sampleRepository (run (step sampleRepository) claimedServer
      [.begin sampleCompletion, .finish 0]) sampleCompletion bytes ∧
    ¬Repeats sampleRepository (run (step sampleRepository) claimedServer
      ([.begin sampleCompletion, .finish 0] ++ [.migrate "20260803_0013".toList]))
        sampleCompletion bytes := by
  obtain ⟨done, hrun, hdone, hrevision⟩ := claimedServer_run
  have hinv := @consistent_run sampleRepository claimedServer
    (consistent_stored claimedServer_stored) [.begin sampleCompletion, .finish 0]
  have hready := ready_kept claimedServer_ready
    (@kept_run sampleRepository claimedServer [.begin sampleCompletion, .finish 0])
  rw [run_append, hrun]
  rw [hrun] at hinv hready
  have hmigrate : step sampleRepository done (.migrate "20260803_0013".toList) =
      .ok { done with revision := "20260803_0013".toList } := rfl
  refine ⟨claimedServer_stored, completionBytes, ?_, ?_⟩
  · exact (repeats_iff hinv hready hdone rfl rfl rfl sampleCaller_authorized).mpr hrevision
  · have hlater := consistent_step hinv hmigrate
    have hstill := ready_kept hready (kept_step hmigrate)
    rw [run_cons, attempt_of_ok hmigrate, run_nil]
    intro h
    have hsame := (repeats_iff hlater hstill hdone rfl rfl rfl sampleCaller_authorized).mp h
    have hdiffer : "20260803_0013".toList ≠ "20260803_0012".toList := by decide
    exact hdiffer hsame

end Sample

end PredictionMarketMonitor.DispatchOnce
