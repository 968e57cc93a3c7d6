import PredictionMarketMonitor.AnalysisQueue

set_option autoImplicit false

/-!
# Analysis leases over whole histories

A ledger beside the item remembers the most recent grant until it is
acknowledged or recovered. The stored token is that of the ledger, so only its
holder is accepted; and every state a capability refusal has not touched leads
to an analysis.
-/
namespace PredictionMarketMonitor.AnalysisLeases

open AnalysisQueue CanonicalJson CivilTime CollectionBase FallibleSteps Sha256

section Ledger
variable (dumpOutput : AnalysisOutput → Bytes)

structure Grant where
  token : String
  principalId : UUID
  expiresAt : Instant

/-- The item, its latest grant while neither acknowledged nor recovered, and how
    many grants and successes were accepted. -/
structure Ledger where
  item : QueueItem
  holder : Option Grant
  grants : ℕ
  successes : ℕ

def Ledger.start (item : QueueItem) : Ledger := ⟨item, none, 0, 0⟩

def Ledger.record (L : Ledger) (item : QueueItem) : Command → Ledger
  | .requestLease c (.approved _) =>
    ⟨item, some ⟨c.leaseToken, c.principalId, c.now + leaseDuration⟩, L.grants + 1, L.successes⟩
  | .requestLease _ (.blocked _) => { L with item := item }
  | .heartbeat c =>
    { L with
      item := item
      holder := L.holder.map (fun g => { g with expiresAt := c.now + leaseDuration }) }
  | .ackSuccess _ => ⟨item, none, L.grants, L.successes + 1⟩
  | .ackRetryableFailure _ _ | .recoverExpiredLease _ => ⟨item, none, L.grants, L.successes⟩

def ledgerStep (L : Ledger) (c : Command) : QueueResult Ledger := do
  let item ← step dumpOutput L.item c
  return L.record item c

def presented : Command → Option LeaseCommand
  | .heartbeat c | .ackRetryableFailure c _ => some c
  | .ackSuccess c => some c.lease
  | .requestLease _ _ | .recoverExpiredLease _ => none

def tokenOf : Command → Option String
  | .requestLease c _ | .heartbeat c | .ackRetryableFailure c _ => some c.leaseToken
  | .ackSuccess c => some c.lease.leaseToken
  | .recoverExpiredLease _ => none

variable {dumpOutput}

theorem ledgerStep_eq_ok {L M : Ledger} {c : Command} :
    ledgerStep dumpOutput L c = .ok M ↔
      ∃ item, step dumpOutput L.item c = .ok item ∧ L.record item c = M := by
  rw [ledgerStep, bind_eq_ok]
  exact exists_congr fun _ => and_congr_right fun _ => ⟨Except.ok.inj, fun h => h ▸ rfl⟩

/-- The item's lease fields are those of the ledger's grant. -/
structure HeldBy (s : QueueItem) (g : Grant) : Prop where
  token : s.leaseTokenHash = some (hashToken g.token)
  principal : s.leasedByPrincipalId = some g.principalId
  expiry : s.leaseExpiresAt = some g.expiresAt

structure LedgerInvariant (tokens : List String) (L : Ledger) : Prop where
  attempts : L.item.attempts ≤ 3
  held : L.item.status = .leased → ∃ g, L.holder = some g ∧ g.token ∈ tokens ∧ HeldBy L.item g
  grants : L.grants ≤ L.item.attempts + 1
  waiting : Leaseable L.item.status → L.grants = L.item.attempts
  leased : L.item.status = .leased → L.grants = L.item.attempts + 1
  open_ : L.item.status ≠ .succeeded ∧ L.item.status ≠ .blockedCapability → L.successes = 0
  once : L.successes ≤ 1

theorem ledgerInvariant_start {item : QueueItem} (h : Registered item) (tokens : List String) :
    LedgerInvariant tokens (.start item) where
  attempts := by simp [Ledger.start, h.first]
  held := by simp [Ledger.start, h.pending]
  grants := by simp [Ledger.start]
  waiting := by simp [Ledger.start, h.first]
  leased := by simp [Ledger.start, h.pending]
  open_ := fun _ => rfl
  once := Nat.zero_le 1

theorem ledger_retried {tokens : List String} {L : Ledger} {t : QueueItem}
    (hL : LedgerInvariant tokens L) (hleased : L.item.status = .leased) (h : Retried L.item t) :
    LedgerInvariant tokens ⟨t, none, L.grants, L.successes⟩ := by
  have hgrants := hL.leased hleased
  have hopen := hL.open_ (by simp [hleased])
  rcases h.cases with ⟨hlt, hstatus, hnext⟩ | ⟨_, hstatus, hnext⟩
  · exact {
      attempts := by dsimp only; omega
      held := by simp [hstatus]
      grants := by dsimp only; omega
      waiting := by intro _; dsimp only; omega
      leased := by simp [hstatus]
      open_ := fun _ => hopen
      once := hL.once }
  · have hattempts := hL.attempts
    exact {
      attempts := by dsimp only; omega
      held := by simp [hstatus]
      grants := by dsimp only; omega
      waiting := by simp [Leaseable, hstatus]
      leased := by simp [hstatus]
      open_ := fun _ => hopen
      once := hL.once }

theorem ledgerInvariant_step {tokens : List String} {L M : Ledger} {c : Command}
    (hL : LedgerInvariant tokens L) (hc : ∀ token ∈ tokenOf c, token ∈ tokens)
    (h : ledgerStep dumpOutput L c = .ok M) : LedgerInvariant tokens M := by
  obtain ⟨item, hstep, rfl⟩ := ledgerStep_eq_ok.mp h
  cases step_change hstep with
  | block c reasonCodes =>
    exact {
      attempts := hL.attempts
      held := by simp [Ledger.record]
      grants := hL.grants
      waiting := by simp [Ledger.record, Leaseable]
      leased := by simp [Ledger.record]
      open_ := by simp [Ledger.record]
      once := hL.once }
  | grant c proofs hgrant =>
    have hgrants := hL.waiting hgrant.leaseable
    have hopen := hL.open_ (by rcases hgrant.leaseable with hs | hs <;> simp [hs])
    exact {
      attempts := hL.attempts
      held := fun _ => ⟨_, rfl, hc c.leaseToken rfl, rfl, rfl, rfl⟩
      grants := by simp [Ledger.record, hgrants]
      waiting := by simp [Ledger.record, Leaseable]
      leased := by simp [Ledger.record, hgrants]
      open_ := fun _ => hopen
      once := hL.once }
  | beat c hactive =>
    obtain ⟨g, hg, hmem, hheld⟩ := hL.held hactive.leased
    exact {
      attempts := hL.attempts
      held := fun _ => ⟨{ g with expiresAt := c.now + leaseDuration },
        by simp only [Ledger.record, hg, Option.map_some], hmem, hheld.token, hheld.principal, rfl⟩
      grants := hL.grants
      waiting := hL.waiting
      leased := hL.leased
      open_ := hL.open_
      once := hL.once }
  | succeed c hactive =>
    have hopen := hL.open_ (by simp [hactive.leased])
    exact {
      attempts := hL.attempts
      held := by simp [Ledger.record, clearLease]
      grants := hL.grants
      waiting := by simp [Ledger.record, clearLease, Leaseable]
      leased := by simp [Ledger.record, clearLease]
      open_ := by simp [Ledger.record, clearLease]
      once := by simp [Ledger.record, hopen] }
  | fail c errorCode hactive =>
    exact ledger_retried hL hactive.leased (scheduleRetry_retried _ _ _)
  | recover now expiresAt hleased =>
    exact ledger_retried hL hleased (scheduleRetry_retried _ _ _)

theorem ledgerInvariant_run {item : QueueItem} (h : Registered item) {tokens : List String}
    (commands : List Command) (htokens : ∀ c ∈ commands, ∀ token ∈ tokenOf c, token ∈ tokens) :
    LedgerInvariant tokens (run (ledgerStep dumpOutput) (.start item) commands) :=
  run_invariant_of (C := fun _ c => ∀ token ∈ tokenOf c, token ∈ tokens)
    (fun _ _ _ hL hc hstep => ledgerInvariant_step hL hc hstep) (ledgerInvariant_start h tokens)
    (meets_of_forall _ _ fun _ c hc => htokens c hc)

end Ledger

section Exclusion
variable {dumpOutput : AnalysisOutput → Bytes}

def CollisionFree (commands : List Command) : Prop :=
  ∀ a ∈ commands.filterMap tokenOf, ∀ b ∈ commands.filterMap tokenOf,
    hashToken a = hashToken b → a = b

def ledgerAfter (dumpOutput : AnalysisOutput → Bytes) (item : QueueItem)
    (commands : List Command) : Ledger :=
  run (ledgerStep dumpOutput) (.start item) commands

/-- Exclusive leases: what holds at every point of a history. -/
structure ExclusiveLeases (dumpOutput : AnalysisOutput → Bytes) (item : QueueItem)
    (commands : List Command) : Prop where
  holder : ∀ pre c post, commands = pre ++ c :: post → ∀ lease ∈ presented c, ∀ t,
    step dumpOutput (ledgerAfter dumpOutput item pre).item c = .ok t →
    ∃ g, (ledgerAfter dumpOutput item pre).holder = some g ∧ lease.leaseToken = g.token ∧
      lease.principalId = g.principalId ∧ lease.now < g.expiresAt
  once : (ledgerAfter dumpOutput item commands).successes ≤ 1
  rejected : ∀ c e, step dumpOutput (ledgerAfter dumpOutput item commands).item c = .error e →
    ledgerAfter dumpOutput item (commands ++ [c]) = ledgerAfter dumpOutput item commands
  bounded : (ledgerAfter dumpOutput item commands).grants ≤ 4

/-- After four grants the item is leased for the last time or finished. -/
def Exhausting (L : Ledger) : Prop :=
  L.grants = 4 → L.item.status = .leased ∨ Final L.item.status

theorem active_of_presented {s t : QueueItem} {c : Command} {lease : LeaseCommand}
    (hlease : lease ∈ presented c) (h : step dumpOutput s c = .ok t) : Active s lease := by
  cases step_change h with
  | block => cases hlease
  | grant => cases hlease
  | beat c hactive => exact Option.mem_some.mp hlease ▸ hactive
  | succeed c hactive => exact Option.mem_some.mp hlease ▸ hactive
  | fail c errorCode hactive => exact Option.mem_some.mp hlease ▸ hactive
  | recover => cases hlease

theorem tokenOf_presented {c : Command} {lease : LeaseCommand} (h : lease ∈ presented c) :
    tokenOf c = some lease.leaseToken := by
  cases c with
  | requestLease => cases h
  | recoverExpiredLease => cases h
  | heartbeat c => rw [← Option.mem_some.mp h]; rfl
  | ackRetryableFailure c errorCode => rw [← Option.mem_some.mp h]; rfl
  | ackSuccess c => rw [← Option.mem_some.mp h]; rfl

theorem exclusiveLeases {item : QueueItem} (h : Registered item) {commands : List Command}
    (hfree : CollisionFree commands) : ExclusiveLeases dumpOutput item commands := by
  have htokens : ∀ c ∈ commands, ∀ token ∈ tokenOf c, token ∈ commands.filterMap tokenOf :=
    fun c hc token htoken => List.mem_filterMap.mpr ⟨c, hc, htoken⟩
  have hinvariant := @ledgerInvariant_run dumpOutput _ h _ commands htokens
  refine ⟨?_, hinvariant.once, ?_, ?_⟩
  · rintro pre c post rfl lease hlease t hstep
    have hpre : LedgerInvariant ((pre ++ c :: post).filterMap tokenOf)
        (ledgerAfter dumpOutput item pre) :=
      ledgerInvariant_run h pre fun d hd => htokens d (by simp [hd])
    have hactive := active_of_presented hlease hstep
    obtain ⟨g, hg, hmem, hheld⟩ := hpre.held hactive.leased
    obtain ⟨expiresAt, hexpires, hnow⟩ := hactive.unexpired
    have htoken : hashToken lease.leaseToken = hashToken g.token :=
      Option.some.inj (hactive.token.symm.trans hheld.token)
    have hprincipal := Option.some.inj (hactive.principal.symm.trans hheld.principal)
    have hexpiry := Option.some.inj (hexpires.symm.trans hheld.expiry)
    exact ⟨g, hg, hfree _ (htokens c (by simp) _ (tokenOf_presented hlease)) _ hmem htoken,
      hprincipal, hexpiry ▸ hnow⟩
  · intro c e hstep
    have hledger : ledgerStep dumpOutput (ledgerAfter dumpOutput item commands) c = .error e := by
      rw [ledgerStep, hstep]
      rfl
    rw [ledgerAfter, run_append, run_cons, run_nil]
    exact attempt_of_error hledger
  · have hgrants := hinvariant.grants
    have hattempts := hinvariant.attempts
    change (run (ledgerStep dumpOutput) (.start item) commands).grants ≤ 4
    omega

/-- Ledgers that a refusal touched only before the fourth grant. -/
structure Exhausted (tokens : List String) (L : Ledger) : Prop where
  invariant : LedgerInvariant tokens L
  blocked : L.item.status = .blockedCapability → L.grants < 4

theorem exhausting_of_exhausted {tokens : List String} {L : Ledger} (h : Exhausted tokens L) :
    Exhausting L := by
  intro hgrants
  have hattempts := h.invariant.attempts
  cases hstatus : L.item.status with
  | leased => exact .inl rfl
  | succeeded => exact .inr (.inl rfl)
  | failedTerminal => exact .inr (.inr rfl)
  | blockedCapability => exact absurd (h.blocked hstatus) (by omega)
  | pending =>
    have := h.invariant.waiting (.inl hstatus)
    omega
  | failedRetryable =>
    have := h.invariant.waiting (.inr hstatus)
    omega

theorem exhausted_step {tokens : List String} {L M : Ledger} {c : Command}
    (hL : Exhausted tokens L) (hc : ∀ token ∈ tokenOf c, token ∈ tokens)
    (hblocked : c.Blocked → L.grants < 4) (h : ledgerStep dumpOutput L c = .ok M) :
    Exhausted tokens M := by
  refine ⟨ledgerInvariant_step hL.invariant hc h, ?_⟩
  obtain ⟨item, hstep, rfl⟩ := ledgerStep_eq_ok.mp h
  cases step_change hstep with
  | block c reasonCodes => exact fun _ => hblocked trivial
  | grant c proofs hgrant => simp [Ledger.record]
  | beat c hactive => simp [Ledger.record, hactive.leased]
  | succeed c hactive => simp [Ledger.record, clearLease]
  | fail c errorCode hactive =>
    rcases (scheduleRetry_retried L.item c.now errorCode).cases with ⟨_, hs, _⟩ | ⟨_, hs, _⟩ <;>
      simp [Ledger.record, hs]
  | recover now expiresAt hleased =>
    rcases (scheduleRetry_retried L.item expiresAt "lease_expired").cases with
      ⟨_, hs, _⟩ | ⟨_, hs, _⟩ <;> simp [Ledger.record, hs]

/-- Leases are exclusive and acknowledged once over every history; and the item
    is leased or finished after its last grant exactly when no capability refusal
    follows that grant. -/
theorem leases_exclusive_iff {item : QueueItem} (h : Registered item) {commands : List Command}
    (hfree : CollisionFree commands) : ExclusiveLeases dumpOutput item commands ∧
    ((∀ pre, pre <+: commands → Exhausting (ledgerAfter dumpOutput item pre)) ↔
      ∀ pre c post, commands = pre ++ c :: post → c.Blocked →
        (ledgerAfter dumpOutput item pre).grants < 4) := by
  refine ⟨exclusiveLeases h hfree, fun hexhausting => ?_, fun hblocked => ?_⟩
  · rintro pre c post rfl hc
    obtain ⟨t, hstep, hstatus⟩ : ∃ t, step dumpOutput (ledgerAfter dumpOutput item pre).item c =
        .ok t ∧ t.status = .blockedCapability := ⟨_, step_blocked _ hc, rfl⟩
    have hnext : ledgerAfter dumpOutput item (pre ++ [c]) =
        (ledgerAfter dumpOutput item pre).record t c := by
      rw [ledgerAfter, run_append, run_cons, run_nil]
      exact attempt_of_ok (ledgerStep_eq_ok.mpr ⟨t, hstep, rfl⟩)
    have hlast := hexhausting (pre ++ [c]) ⟨post, by simp⟩
    have hprefix : CollisionFree pre := fun a ha b hb => hfree a (by simp [ha]) b (by simp [hb])
    have hbound := (@exclusiveLeases dumpOutput _ h _ hprefix).bounded
    rw [hnext] at hlast
    refine Nat.lt_of_le_of_ne hbound fun hfour => ?_
    cases c with
    | requestLease c decision =>
      cases decision with
      | blocked reasonCodes => simp [Exhausting, Ledger.record, Final, hfour, hstatus] at hlast
      | approved proofs => cases hc
    | _ => cases hc
  · rintro pre ⟨post, rfl⟩
    have hmeets : ∀ ls ms, pre = ls ++ ms → Exhausted ((pre ++ post).filterMap tokenOf)
        (ledgerAfter dumpOutput item ls) := by
      intro ls
      induction ls using List.reverseRecOn with
      | nil =>
        exact fun _ _ => ⟨ledgerInvariant_start h _, by simp [ledgerAfter, Ledger.start, h.pending]⟩
      | append_singleton ls c ih =>
        intro ms hms
        have hls := ih (c :: ms) (by simp [hms])
        have hc : ∀ token ∈ tokenOf c, token ∈ (pre ++ post).filterMap tokenOf :=
          fun token htoken => List.mem_filterMap.mpr ⟨c, by simp [hms], htoken⟩
        rw [ledgerAfter, run_append, run_cons, run_nil]
        rcases attempt_cases (ledgerStep dumpOutput) (ledgerAfter dumpOutput item ls) c with
          hsame | hstep
        · exact (hsame ▸ hls :)
        · exact exhausted_step hls hc (hblocked ls c (ms ++ post) (by simp [hms])) hstep
    exact exhausting_of_exhausted (hmeets pre [] (by simp))

end Exclusion

section Progress
variable (dumpOutput : AnalysisOutput → Bytes)

def timedStep (s : QueueItem × Instant) (c : Command) : QueueResult (QueueItem × Instant) := do
  let item ← step dumpOutput s.1 c
  return (item, c.now)

/-- Commands from `start` on, with every capability approved, that end in an analysis. -/
def CanSucceed (s : QueueItem) (start : Instant) : Prop :=
  ∃ commands : List Command, (∀ c ∈ commands, ¬c.Blocked ∧ start ≤ c.now) ∧
    (commands.map Command.now).Pairwise (· ≤ ·) ∧
    (run (step dumpOutput) s commands).status = .succeeded

variable {dumpOutput}

theorem canSucceed_cons {s t : QueueItem} {start : Instant} {c : Command}
    (hstep : step dumpOutput s c = .ok t) (hc : ¬c.Blocked) (hstart : start ≤ c.now)
    (h : CanSucceed dumpOutput t c.now) : CanSucceed dumpOutput s start := by
  obtain ⟨commands, hcommands, hsorted, hsucceeded⟩ := h
  refine ⟨c :: commands, ?_, ?_, ?_⟩
  · intro d hd
    rcases List.mem_cons.mp hd with rfl | hd
    · exact ⟨hc, hstart⟩
    · exact ⟨(hcommands d hd).1, hstart.trans (hcommands d hd).2⟩
  · rw [List.map_cons, List.pairwise_cons]
    refine ⟨fun t ht => ?_, hsorted⟩
    obtain ⟨d, hd, rfl⟩ := List.mem_map.mp ht
    exact (hcommands d hd).2
  · rw [run_cons, attempt_of_ok hstep]
    exact hsucceeded

theorem canSucceed_active {s : QueueItem} {lease : LeaseCommand} {start : Instant}
    (h : Active s lease) (hstart : start ≤ lease.now) : CanSucceed dumpOutput s start := by
  have hstep : step dumpOutput s (.ackSuccess ⟨lease, irrelevant⟩) =
      .ok (clearLease s .succeeded lease.now none) := by
    rw [step, ackSuccess, requireActiveLease_eq_ok.mpr h]
    rfl
  exact canSucceed_cons hstep id hstart ⟨[], by simp, by simp, rfl⟩

theorem canSucceed_waiting {s : QueueItem} {start : Instant} (h : Leaseable s.status) :
    CanSucceed dumpOutput s start := by
  let lease : LeaseCommand := ⟨s.id, s.binding, 0, freshToken, max start s.availableAt⟩
  have hgrant : Grantable s lease := ⟨⟨rfl, rfl⟩, h, le_max_right _ _, freshToken_length⟩
  have hstep : step dumpOutput s (.requestLease lease (.approved 0)) = .ok { s with
      status := .leased
      leaseTokenHash := some (hashToken lease.leaseToken)
      leaseExpiresAt := some (lease.now + leaseDuration)
      leasedByPrincipalId := some lease.principalId
      lastErrorCode := none } := by
    rw [step, requestLease, grantLease_eq_ok.mpr ⟨hgrant, rfl⟩]
    rfl
  refine canSucceed_cons hstep id (le_max_left _ _) (@canSucceed_active _ _ lease _ ?_ (le_refl _))
  exact ⟨⟨rfl, rfl⟩, rfl, rfl, rfl, _, rfl, Int.lt_add_of_pos_right _ (by decide)⟩

theorem canSucceed_expired {s : QueueItem} {start expiresAt : Instant} (hs : ItemInvariant s)
    (hleased : s.status = .leased) (hexpires : s.leaseExpiresAt = some expiresAt)
    (hexpired : expiresAt ≤ start) (hattempts : s.attempts < 3) :
    CanSucceed dumpOutput s start := by
  have hstep : step dumpOutput s (.recoverExpiredLease start) =
      .ok (scheduleRetry s expiresAt "lease_expired") :=
    recoverExpiredLease_eq_ok.mpr ⟨expiresAt, hleased, hs.token.mp hleased, hs.principal.mp hleased,
      hexpires, hexpired, rfl⟩
  refine canSucceed_cons hstep id (le_refl _) (canSucceed_waiting (.inr ?_))
  rcases (scheduleRetry_retried s expiresAt "lease_expired").cases with ⟨_, hstatus, _⟩ | ⟨hlast, _⟩
  · exact hstatus
  · omega

/-- A state that no capability refusal has touched, and the time it was reached at. -/
structure Untouched (s : QueueItem × Instant) : Prop where
  invariant : ItemInvariant s.1
  unblocked : s.1.status ≠ .blockedCapability
  held : s.1.status = .leased → ∃ token, s.1.leaseTokenHash = some (hashToken token)
  live : ∀ expiresAt ∈ s.1.leaseExpiresAt, s.2 < expiresAt

theorem untouched_step {s t : QueueItem × Instant} {c : Command} (hs : Untouched s)
    (hc : ¬c.Blocked) (h : timedStep dumpOutput s c = .ok t) : Untouched t := by
  obtain ⟨item, hstep, h⟩ := bind_eq_ok.mp h
  obtain rfl := Except.ok.inj h
  have hchange := step_change hstep
  have hlawful := lawful_change hs.invariant (fun hblocked => absurd hblocked hc) hchange
  have hlater : ∀ now : Instant, now < now + leaseDuration := fun now =>
    Int.lt_add_of_pos_right _ (by decide)
  have hretried {interruptedAt : Instant} {errorCode : String} :
      (scheduleRetry s.1 interruptedAt errorCode).status ≠ .blockedCapability ∧
      (scheduleRetry s.1 interruptedAt errorCode).status ≠ .leased ∧
      (scheduleRetry s.1 interruptedAt errorCode).leaseExpiresAt = none := by
    have hcleared := (scheduleRetry_retried s.1 interruptedAt errorCode).cleared
    rcases (scheduleRetry_retried s.1 interruptedAt errorCode).cases with
      ⟨_, hstatus, _⟩ | ⟨_, hstatus, _⟩ <;> simp [hstatus, hcleared]
  cases hchange with
  | block => exact absurd trivial hc
  | grant c proofs hgrant =>
    refine ⟨hlawful.invariant, by simp, fun _ => ⟨c.leaseToken, rfl⟩, ?_⟩
    intro expiresAt hexpires
    exact Option.mem_some.mp hexpires ▸ hlater c.now
  | beat c hactive =>
    refine ⟨hlawful.invariant, by simp [hactive.leased], hs.held, ?_⟩
    intro expiresAt hexpires
    exact Option.mem_some.mp hexpires ▸ hlater c.now
  | succeed c hactive =>
    exact ⟨hlawful.invariant, by simp [clearLease], by simp [clearLease], nofun⟩
  | fail c errorCode hactive =>
    exact ⟨hlawful.invariant, hretried.1, fun hleased => absurd hleased hretried.2.1,
      by simp [hretried.2.2]⟩
  | recover now expiresAt hleased =>
    exact ⟨hlawful.invariant, hretried.1, fun hleased => absurd hleased hretried.2.1,
      by simp [hretried.2.2]⟩

theorem canSucceed_untouched {s : QueueItem × Instant} (hs : Untouched s)
    (hopen : ¬Final s.1.status) : CanSucceed dumpOutput s.1 s.2 := by
  cases hstatus : s.1.status with
  | pending => exact canSucceed_waiting (.inl hstatus)
  | failedRetryable => exact canSucceed_waiting (.inr hstatus)
  | blockedCapability => exact absurd hstatus hs.unblocked
  | succeeded => exact absurd (.inl hstatus) hopen
  | failedTerminal => exact absurd (.inr hstatus) hopen
  | leased =>
    obtain ⟨token, htoken⟩ := hs.held hstatus
    obtain ⟨expiresAt, hexpires⟩ := Option.isSome_iff_exists.mp (hs.invariant.expiry.mp hstatus)
    obtain ⟨principal, hprincipal⟩ :=
      Option.isSome_iff_exists.mp (hs.invariant.principal.mp hstatus)
    exact @canSucceed_active _ _ ⟨s.1.id, s.1.binding, principal, token, s.2⟩ _
      ⟨⟨rfl, rfl⟩, hstatus, htoken, hprincipal, expiresAt, hexpires, hs.live _ hexpires⟩ (le_refl _)

/-- Nothing but another refusal is accepted for a blocked item. -/
theorem blocked_run {s : QueueItem} (hs : s.status = .blockedCapability) (commands : List Command) :
    (run (step dumpOutput) s commands).status = .blockedCapability := by
  refine run_invariant (I := fun s : QueueItem => s.status = .blockedCapability) ?_ commands hs
  intro s c t hs hstep
  cases step_change hstep with
  | block => rfl
  | grant c proofs h => rcases h.leaseable with h | h <;> simp [hs] at h
  | beat c h => exact absurd h.leased (by simp [hs])
  | succeed c h => exact absurd h.leased (by simp [hs])
  | fail c errorCode h => exact absurd h.leased (by simp [hs])
  | recover now expiresAt h => exact absurd h (by simp [hs])

theorem timed_item (s : QueueItem × Instant) (commands : List Command) :
    (run (timedStep dumpOutput) s commands).1 = run (step dumpOutput) s.1 commands := by
  induction commands generalizing s with
  | nil => rfl
  | cons c rest ih =>
    rw [run_cons, run_cons, ih]
    congr 1
    cases hstep : step dumpOutput s.1 c with
    | ok item =>
      have htimed : timedStep dumpOutput s c = .ok (item, c.now) := by rw [timedStep, hstep]; rfl
      rw [attempt_of_ok hstep, attempt_of_ok htimed]
    | error e =>
      have htimed : timedStep dumpOutput s c = .error e := by rw [timedStep, hstep]; rfl
      rw [attempt_of_error hstep, attempt_of_error htimed]

/-- An open item can still be analysed, from the time of its last change on,
    exactly when no capability refusal was ever recorded on it. -/
theorem never_stranded_iff {item : QueueItem} (h : Registered item) (registeredAt : Instant)
    (commands : List Command) :
    (¬Final (run (timedStep dumpOutput) (item, registeredAt) commands).1.status →
      CanSucceed dumpOutput (run (timedStep dumpOutput) (item, registeredAt) commands).1
        (run (timedStep dumpOutput) (item, registeredAt) commands).2) ↔
    ∀ c ∈ commands, ¬c.Blocked := by
  constructor
  · intro hopen c hc hblocked
    obtain ⟨pre, post, rfl⟩ := List.append_of_mem hc
    have hstatus : (run (timedStep dumpOutput) (item, registeredAt) (pre ++ c :: post)).1.status =
        .blockedCapability := by
      rw [timed_item, run_append, run_cons, attempt_of_ok (step_blocked _ hblocked)]
      exact blocked_run rfl post
    obtain ⟨later, _, _, hsucceeded⟩ := hopen (by simp [Final, hstatus])
    rw [blocked_run hstatus later] at hsucceeded
    cases hsucceeded
  · intro hunblocked
    have hstart : Untouched (item, registeredAt) :=
      ⟨itemInvariant_registered h, by simp [h.pending], by simp [h.pending], by simp [h.free]⟩
    exact canSucceed_untouched (run_invariant_of (C := fun _ c => ¬c.Blocked)
      (fun _ _ _ hs hc hstep => untouched_step hs hc hstep) hstart
      (meets_of_forall _ _ fun _ c hc => hunblocked c hc))

/-- Time alone strands an untouched item only when its last lease has run out. -/
theorem canSucceed_later_iff {s : QueueItem × Instant} (hs : Untouched s)
    (hopen : ¬Final s.1.status) (now : Instant) :
    CanSucceed dumpOutput s.1 now ↔ ¬(s.1.status = .leased ∧ 3 ≤ s.1.attempts ∧
      ∃ expiresAt, s.1.leaseExpiresAt = some expiresAt ∧ expiresAt ≤ now) := by
  constructor
  · rintro ⟨commands, hcommands, _, hsucceeded⟩ ⟨hleased, hlast, expiresAt, hexpires, hexpired⟩
    have hended := @run_invariant_of _ _ _ (step dumpOutput)
      (fun t => t = s.1 ∨ t.status = .failedTerminal)
      (fun _ c => ¬c.Blocked ∧ now ≤ c.now) ?_ _ _ (.inl rfl)
      (meets_of_forall s.1 commands fun _ c hc => hcommands c hc)
    · rcases hended with hsame | hterminal
      · rw [hsame, hleased] at hsucceeded
        cases hsucceeded
      · rw [hterminal] at hsucceeded
        cases hsucceeded
    · intro t c u ht hc hstep
      have hdead {lease : LeaseCommand} (hnow : now ≤ lease.now) (hactive : Active t lease) :
          False := by
        rcases ht with rfl | ht
        · obtain ⟨other, hother, hlive⟩ := hactive.unexpired
          obtain rfl := Option.some.inj (hexpires.symm.trans hother)
          exact absurd (hexpired.trans hnow) (not_le.mpr hlive)
        · exact absurd hactive.leased (by simp [ht])
      cases step_change hstep with
      | block => exact absurd trivial hc.1
      | grant c proofs hgrant =>
        rcases ht with rfl | ht <;> rcases hgrant.leaseable with h | h <;> simp_all
      | beat c hactive => exact (hdead hc.2 hactive).elim
      | succeed c hactive => exact (hdead hc.2 hactive).elim
      | fail c errorCode hactive => exact (hdead hc.2 hactive).elim
      | recover at_ other hother =>
        rcases ht with rfl | ht
        · rcases (scheduleRetry_retried s.1 other "lease_expired").cases with
            ⟨hlt, _⟩ | ⟨_, hterminal, _⟩
          · omega
          · exact .inr hterminal
        · simp [ht] at hother
  · intro hlive
    cases hstatus : s.1.status with
    | pending => exact canSucceed_waiting (.inl hstatus)
    | failedRetryable => exact canSucceed_waiting (.inr hstatus)
    | blockedCapability => exact absurd hstatus hs.unblocked
    | succeeded => exact absurd (.inl hstatus) hopen
    | failedTerminal => exact absurd (.inr hstatus) hopen
    | leased =>
      obtain ⟨token, htoken⟩ := hs.held hstatus
      obtain ⟨expiresAt, hexpires⟩ := Option.isSome_iff_exists.mp (hs.invariant.expiry.mp hstatus)
      obtain ⟨principal, hprincipal⟩ :=
        Option.isSome_iff_exists.mp (hs.invariant.principal.mp hstatus)
      by_cases hexpired : expiresAt ≤ now
      · refine canSucceed_expired hs.invariant hstatus hexpires hexpired ?_
        by_contra hlast
        exact hlive ⟨hstatus, by omega, expiresAt, hexpires, hexpired⟩
      · exact @canSucceed_active _ _ ⟨s.1.id, s.1.binding, principal, token, now⟩ _
          ⟨⟨rfl, rfl⟩, hstatus, htoken, hprincipal, expiresAt, hexpires, not_le.mp hexpired⟩
          (le_refl _)

end Progress

section Sample

/-- Four leases in a row that run out, and a capability refusal after the last one. -/
def fourLostLeases : List Command :=
  [.requestLease (sampleLease 0) (.approved 0), .recoverExpiredLease (seconds 600),
   .requestLease (sampleLease 1000) (.approved 0), .recoverExpiredLease (seconds 1600),
   .requestLease (sampleLease 2000) (.approved 0), .recoverExpiredLease (seconds 2600),
   .requestLease (sampleLease 5000) (.approved 0), .recoverExpiredLease (seconds 5600),
   .requestLease (sampleLease 6000) (.blocked ["zero_tools_unproven"])]

theorem fourLostLeases_blocked :
    let L := ledgerAfter sampleDump sampleItem fourLostLeases
    L.grants = 4 ∧ L.item.status = .blockedCapability := by
  decide +kernel

def oneAnalysis : List Command :=
  [.requestLease (sampleLease 0) (.approved 0), .heartbeat (sampleLease 60),
   .ackSuccess ⟨sampleLease 120, irrelevant⟩]

theorem oneAnalysis_unblocked : ∀ c ∈ oneAnalysis, ¬c.Blocked := by
  simp [oneAnalysis, Command.Blocked]

theorem oneAnalysis_collisionFree : CollisionFree oneAnalysis := by
  have hsame : ∀ token ∈ oneAnalysis.filterMap tokenOf, token = freshToken := by
    simp [oneAnalysis, tokenOf, sampleLease]
  intro a ha b hb _
  rw [hsame a ha, hsame b hb]

theorem leases_exclusive_iff_sample : ExclusiveLeases sampleDump sampleItem oneAnalysis ∧
    ∀ pre, pre <+: oneAnalysis → Exhausting (ledgerAfter sampleDump sampleItem pre) := by
  obtain ⟨hexclusive, hexhausting⟩ := @leases_exclusive_iff sampleDump _
    sampleItem_registered _ oneAnalysis_collisionFree
  refine ⟨hexclusive, hexhausting.mpr fun pre c post hsplit hblocked => ?_⟩
  exact absurd hblocked (oneAnalysis_unblocked c (by simp [hsplit]))

/-- The refusal after the last lost lease takes a finished item back. -/
theorem leases_exhausted_refused : ∃ pre, pre <+: fourLostLeases ∧
    ¬Exhausting (ledgerAfter sampleDump sampleItem pre) := by
  obtain ⟨hgrants, hstatus⟩ := fourLostLeases_blocked
  refine ⟨fourLostLeases, List.prefix_rfl, fun hexhausting => ?_⟩
  have := hexhausting hgrants
  simp [Final, hstatus] at this

theorem never_stranded_iff_sample : CanSucceed sampleDump
    (run (timedStep sampleDump) (sampleItem, 0) (oneAnalysis.take 2)).1
    (run (timedStep sampleDump) (sampleItem, 0) (oneAnalysis.take 2)).2 :=
  (never_stranded_iff sampleItem_registered 0 (oneAnalysis.take 2)).mpr
    (fun c hc => oneAnalysis_unblocked c (List.mem_of_mem_take hc)) (by decide +kernel)

/-- A capability refusal of a new item leaves it open for ever. -/
theorem refused_stranded :
    let s := run (timedStep sampleDump) (sampleItem, 0)
      [.requestLease (sampleLease 0) (.blocked ["zero_tools_unproven"])]
    ¬Final s.1.status ∧ ¬CanSucceed sampleDump s.1 s.2 := by
  refine ⟨by decide +kernel, fun ⟨commands, _, _, hsucceeded⟩ => ?_⟩
  rw [blocked_run (by decide +kernel) commands] at hsucceeded
  cases hsucceeded

end Sample

end PredictionMarketMonitor.AnalysisLeases
