import PredictionMarketMonitor.CollectionModels

set_option autoImplicit false

/-!
# Source authority and free-budget decisions

`authorization.py` and `claim_policy.py`.
-/
namespace PredictionMarketMonitor.ClaimPolicy

open CivilTime CollectionBase CollectionModels FallibleSteps

/-- The decision is a current approval of exactly this source and scope. -/
def ActiveFor (snapshot : AuthorizationSnapshot) (sourceId : UUID) (scopeVersion : String)
    (now : Instant) : Prop :=
  snapshot.enabled ∧ snapshot.status = .approved ∧
    (snapshot.sourceId = sourceId ∧ snapshot.scopeVersion = scopeVersion) ∧
    (snapshot.effectiveAt ≤ now ∧ (∃ t ∈ snapshot.expiresAt, now < t) ∧
      snapshot.revokedAt = none)

instance (snapshot : AuthorizationSnapshot) (sourceId : UUID) (scopeVersion : String)
    (now : Instant) : Decidable (ActiveFor snapshot sourceId scopeVersion now) :=
  inferInstanceAs (Decidable (_ ∧ _))

def requireActiveAuthorization (snapshot : AuthorizationSnapshot) (sourceId : UUID)
    (scopeVersion : String) (now : Instant) : Result ActiveAuthorization := do
  require (ActiveFor snapshot sourceId scopeVersion now) (fail .sourceAuthorizationInactive 403)
  return ⟨snapshot.decisionId⟩

theorem requireActiveAuthorization_eq_ok {snapshot : AuthorizationSnapshot} {sourceId : UUID}
    {scopeVersion : String} {now : Instant} {proof : ActiveAuthorization} :
    requireActiveAuthorization snapshot sourceId scopeVersion now = .ok proof ↔
      ActiveFor snapshot sourceId scopeVersion now ∧ ⟨snapshot.decisionId⟩ = proof := by
  simp only [requireActiveAuthorization, require_bind, pure, Except.pure, Except.ok.injEq]

def softStopUnits : ℤ := 70
def hardStopUnits : ℤ := 80

structure BudgetRecordFacts where
  observedUnits : ℤ
  softStopUnits : ℤ
  hardStopUnits : ℤ
  paidSpendEnabled : Bool
deriving DecidableEq

structure ClaimBudgetDecision where
  status : BudgetDecisionStatus
  reviewedPageCap : ℕ
  reviewedPostCap : ℕ
  skipCollection : Bool
  reasonCode : String
deriving DecidableEq

def deriveClaimBudget (record : BudgetRecordFacts) (reviewedPageCap reviewedPostCap : ℕ) :
    Result ClaimBudgetDecision := do
  require (record.softStopUnits = softStopUnits ∧ record.hardStopUnits = hardStopUnits ∧
    record.paidSpendEnabled = false ∧ 0 ≤ record.observedUnits ∧
    0 < reviewedPageCap ∧ 0 < reviewedPostCap) (fail .invalidContract 409)
  if record.hardStopUnits ≤ record.observedUnits then
    return ⟨.hardStop, 0, 0, true, "free_tier_hard_stop"⟩
  else if record.softStopUnits ≤ record.observedUnits then
    return ⟨.softLimit, max 1 (reviewedPageCap / 2), max 1 (reviewedPostCap / 2), false,
      "free_tier_soft_scope_reduction"⟩
  else
    return ⟨.allow, reviewedPageCap, reviewedPostCap, false, "free_tier_allow"⟩

/-- Exact authority and effective budget scope persisted on one run. -/
structure ClaimSourcePolicy where
  sourceId : UUID
  authorization : ClaimAuthorization
  budgetDecisionId : UUID
  budgetStatus : BudgetDecisionStatus
  reviewedPageCap : ℕ
  reviewedPostCap : ℕ
  skipBudgetDecisionId : Option UUID
deriving DecidableEq

def bindPolicy (run : RunState) (policy : ClaimSourcePolicy) : RunState :=
  { run with
    authorizationDecisionId := some policy.authorization.decisionId
    authorizationSnapshot := some policy.authorization
    budgetDecisionId := some policy.budgetDecisionId
    budgetDecisionStatus := some policy.budgetStatus
    reviewedPageCap := some policy.reviewedPageCap
    reviewedPostCap := some policy.reviewedPostCap
    skipBudgetDecisionId := policy.skipBudgetDecisionId }

end PredictionMarketMonitor.ClaimPolicy
