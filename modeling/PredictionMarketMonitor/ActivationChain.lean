import PredictionMarketMonitor.ActivationEffects

set_option autoImplicit false

/-!
# The transitions of an activation as a chain

Both readers order by timestamp and identity, while the chain is recorded by
predecessors. The two agree as long as every transition is written later than the
ones of its activation; a transaction that waits for the lock can fall behind.
-/
namespace PredictionMarketMonitor.ActivationChain

open ActivationCommands ActivationEffects ActivationJournal ActivationPlans ActivationReceipts
open CanonicalJson CivilTime CollectionBase FallibleSteps KeyedTable RankedChain Sha256

abbrev Transition := SourceActivationStateTransition

section Laws

def OneLine (rows : List Transition) : Prop :=
  ∃ line : List Transition, line.Perm rows ∧
    Linear SourceActivationStateTransition.predecessorTransitionId
      SourceActivationStateTransition.id line

/-- The transition of an activation that no transition names as its predecessor. -/
def ChainTip (db : ActivationDatabase) (nonce : UUID) (tip : Transition) : Prop :=
  tip ∈ transitionsOf db nonce ∧
    ∀ row ∈ db.transitions.rows, row.predecessorTransitionId ≠ some tip.id

structure ChainLaws (db : ActivationDatabase) : Prop where
  line : ∀ nonce, OneLine (transitionsOf db nonce)
  latest : ∀ nonce, transitionsOf db nonce ≠ [] → ∃ tip, ChainTip db nonce tip ∧
    (∀ other, ChainTip db nonce other → other = tip) ∧ latestTransition db nonce = some tip ∧
    latestState db nonce = some tip.state
  current : db.transitions.rows ≠ [] → ∃ tip, ChainTip db tip.activationNonce tip ∧
    currentTransition db = some tip
  loaded : ∀ locked, loadCurrentState db = .ok locked →
    ∃ tip, ChainTip db locked.state.activationNonce tip ∧ locked.transitionId = tip.id ∧
      locked.state.state = tip.state

/-- The database behind the migration: activations that are prepared, and nothing more. -/
structure Migrated (db : ActivationDatabase) : Prop where
  prepared : ∀ row ∈ db.transitions.rows, row.predecessorTransitionId = none ∧
    row.state = .prepared
  manifold : ∀ row ∈ db.transitions.rows, row.sourceId = manifoldSourceId
  attested : ∀ row ∈ db.transitions.rows, ∃ attestation ∈ db.attestations.rows,
    row.attestationId = some attestation.id
  distinct : (db.transitions.rows.map SourceActivationStateTransition.activationNonce).Nodup

/-- Every recorded transition of the activation is older than `t`. -/
def After (db : ActivationDatabase) (nonce : UUID) (t : Instant) : Prop :=
  ∀ row ∈ db.transitions.rows, row.activationNonce = nonce → row.transitionAtDb < t

def transitionId (receiptSha256 : Digest) : UUID :=
  uuid5 repositoryNamespace ("transition:".toList ++ receiptSha256.hexdigest)

/-- The two rows of a restore carry one timestamp, and sort by their identities. -/
structure PairOrdered (db : ActivationDatabase) (receiptSha256 : Digest) : Prop where
  fresh : ∀ row ∈ db.transitions.rows, row.id ≠ deactivatedIdentity receiptSha256
  ordered : (deactivatedIdentity receiptSha256).toNat < (transitionId receiptSha256).toNat

/-- The transactions of an operation start behind the recorded transitions of its
    activation, in the order of their writes. -/
def InOrder (boundary : Boundary) (db : ActivationDatabase) : Operation → Prop
  | .phase request dbNow statementAt => After db request.activationNonce dbNow ∧
    ∀ failed restored verification, request.phase = .restore failed restored verification →
      ∀ output next, activate boundary request db dbNow statementAt = .ok (output, next) →
        PairOrdered db output.receiptSha256
  | .mutation args session => After db args.activationNonce session.first ∧
    session.first < session.second

end Laws

section Invariant

/-- The rows of each activation are a line that ascends in the order of the readers. -/
structure Chained (db : ActivationDatabase) : Prop where
  linear : ∀ nonce, Linear SourceActivationStateTransition.predecessorTransitionId
    SourceActivationStateTransition.id (transitionsOf db nonce)
  ascending : ∀ nonce, (transitionsOf db nonce).Pairwise (fun a b => rank a < rank b)
  manifold : ∀ row ∈ db.transitions.rows, row.sourceId = manifoldSourceId
  attested : ∀ row ∈ db.transitions.rows, ∃ attestation ∈ db.attestations.rows,
    row.attestationId = some attestation.id

variable {db next : ActivationDatabase}

theorem mem_transitionsOf {nonce : UUID} {row : Transition} :
    row ∈ transitionsOf db nonce ↔ row ∈ db.transitions.rows ∧ row.activationNonce = nonce := by
  rw [transitionsOf, List.mem_filter, decide_eq_true_iff]

theorem transitionsOf_append {row : Transition}
    (h : next.transitions.rows = db.transitions.rows ++ [row]) (nonce : UUID) :
    transitionsOf next nonce =
      transitionsOf db nonce ++ if row.activationNonce = nonce then [row] else [] := by
  rw [transitionsOf, h, List.filter_append]
  by_cases hnonce : row.activationNonce = nonce
  · rw [if_pos hnonce, List.filter_singleton, decide_eq_true hnonce]
    rfl
  · rw [if_neg hnonce, List.filter_singleton, decide_eq_false hnonce]
    rfl

theorem transitionsOf_nodup (nonce : UUID) :
    ((transitionsOf db nonce).map SourceActivationStateTransition.id).Nodup :=
  db.transitions.distinct.sublist (List.filter_sublist.map _)

theorem latestTransition_eq (h : Chained db) (nonce : UUID) :
    latestTransition db nonce = (transitionsOf db nonce).getLast? :=
  latest_ascending (h.ascending nonce)

theorem eq_of_rank {a b : Transition} (ha : a ∈ db.transitions.rows)
    (hb : b ∈ db.transitions.rows) (h : rank a = rank b) : a = b := by
  have hpair : (a.transitionAtDb, a.id.toNat) = (b.transitionAtDb, b.id.toNat) :=
    toLex.injective h
  exact Table.eq_of_key ha hb (BitVec.eq_of_toNat_eq (Prod.mk.inj hpair).2)

theorem rank_lt_of_time {a b : Transition} (h : a.transitionAtDb < b.transitionAtDb) :
    rank a < rank b := Prod.Lex.toLex_lt_toLex.mpr (.inl h)

theorem rank_lt_of_id {a b : Transition} (ht : a.transitionAtDb = b.transitionAtDb)
    (h : a.id.toNat < b.id.toNat) : rank a < rank b :=
  Prod.Lex.toLex_lt_toLex.mpr (.inr ⟨ht, h⟩)

structure Appendable (db : ActivationDatabase) (row : Transition) : Prop where
  manifold : row.sourceId = manifoldSourceId
  predecessor : row.predecessorTransitionId =
    (latestTransition db row.activationNonce).map SourceActivationStateTransition.id
  later : ∀ r ∈ transitionsOf db row.activationNonce, rank r < rank row

theorem chained_append (h : Chained db) {row : Transition} (hrow : Appendable db row)
    (htransitions : next.transitions.rows = db.transitions.rows ++ [row])
    (hkept : ∀ a ∈ db.attestations.rows, a ∈ next.attestations.rows)
    (hattested : ∃ a ∈ next.attestations.rows, row.attestationId = some a.id) : Chained next where
  linear nonce := by
    rw [transitionsOf_append htransitions]
    by_cases hnonce : row.activationNonce = nonce
    · subst hnonce
      rw [if_pos rfl]
      refine linear_snoc.mpr ⟨h.linear _, ?_⟩
      rw [hrow.predecessor, latestTransition_eq h]
    · rw [if_neg hnonce, List.append_nil]
      exact h.linear nonce
  ascending nonce := by
    rw [transitionsOf_append htransitions]
    by_cases hnonce : row.activationNonce = nonce
    · subst hnonce
      rw [if_pos rfl]
      refine List.pairwise_append.mpr ⟨h.ascending _, List.pairwise_singleton _ _, ?_⟩
      intro r hr b hb
      rw [List.mem_singleton.mp hb]
      exact hrow.later r hr
    · rw [if_neg hnonce, List.append_nil]
      exact h.ascending nonce
  manifold r hr := by
    rw [htransitions] at hr
    rcases List.mem_append.mp hr with hr | hr
    · exact h.manifold r hr
    · rw [List.mem_singleton.mp hr]
      exact hrow.manifold
  attested r hr := by
    rw [htransitions] at hr
    rcases List.mem_append.mp hr with hr | hr
    · obtain ⟨a, ha, hid⟩ := h.attested r hr
      exact ⟨a, hkept a ha, hid⟩
    · rw [List.mem_singleton.mp hr]
      exact hattested

theorem chained_of_same (h : Chained db) (htransitions : next.transitions = db.transitions)
    (hkept : ∀ a ∈ db.attestations.rows, a ∈ next.attestations.rows) : Chained next where
  linear nonce := by
    rw [transitionsOf, htransitions]
    exact h.linear nonce
  ascending nonce := by
    rw [transitionsOf, htransitions]
    exact h.ascending nonce
  manifold row hrow := h.manifold row (htransitions ▸ hrow)
  attested row hrow := by
    obtain ⟨a, ha, hid⟩ := h.attested row (htransitions ▸ hrow)
    exact ⟨a, hkept a ha, hid⟩

theorem chained_migrated (h : Migrated db) : Chained db := by
  have hshort (nonce : UUID) : (transitionsOf db nonce).length ≤ 1 := by
    have hnodup : ((transitionsOf db nonce).map SourceActivationStateTransition.activationNonce).Nodup :=
      h.distinct.sublist (List.filter_sublist.map _)
    have hsame : (transitionsOf db nonce).map SourceActivationStateTransition.activationNonce =
        List.replicate (transitionsOf db nonce).length nonce := by
      rw [← List.map_const']
      exact List.map_congr_left fun row hrow => (mem_transitionsOf.mp hrow).2
    rw [hsame, List.nodup_replicate] at hnodup
    exact hnodup
  constructor
  · intro nonce
    rcases hrows : transitionsOf db nonce with _ | ⟨row, rest⟩
    · trivial
    · have hlength := hshort nonce
      rw [hrows, List.length_cons] at hlength
      obtain rfl : rest = [] := List.eq_nil_of_length_eq_zero (by omega)
      have hmem : row ∈ transitionsOf db nonce := hrows ▸ List.mem_singleton_self row
      exact ⟨(h.prepared row (mem_transitionsOf.mp hmem).1).1, trivial⟩
  · intro nonce
    rcases hrows : transitionsOf db nonce with _ | ⟨row, rest⟩
    · exact List.Pairwise.nil
    · have hlength := hshort nonce
      rw [hrows, List.length_cons] at hlength
      obtain rfl : rest = [] := List.eq_nil_of_length_eq_zero (by omega)
      exact List.pairwise_singleton _ _
  · exact h.manifold
  · exact h.attested

theorem currentTransition_latest (h : Chained db) {row : Transition}
    (hrow : currentTransition db = some row) :
    row ∈ db.transitions.rows ∧ latestTransition db row.activationNonce = some row := by
  have hmem : row ∈ db.transitions.rows := (List.mem_filter.mp (latest_mem hrow)).1
  have hself : row ∈ transitionsOf db row.activationNonce := mem_transitionsOf.mpr ⟨hmem, rfl⟩
  refine ⟨hmem, ?_⟩
  cases hlatest : latestTransition db row.activationNonce with
  | none => rw [latest_eq_none.mp hlatest] at hself; cases hself
  | some other =>
    have hother := (mem_transitionsOf.mp (latest_mem hlatest)).1
    have hselected : other ∈ db.transitions.rows.filter (fun r => r.sourceId = manifoldSourceId ∧
        ∃ a ∈ db.attestations.rows, r.attestationId = some a.id) := by
      rw [List.mem_filter, decide_eq_true_iff]
      exact ⟨hother, h.manifold other hother, h.attested other hother⟩
    have hle := latest_le hrow hselected
    have hge := latest_le hlatest hself
    rw [eq_of_rank hother hmem (le_antisymm hle hge)]

theorem chainTip_latest (h : Chained db) {nonce : UUID} {tip : Transition}
    (hlatest : latestTransition db nonce = some tip) : ChainTip db nonce tip := by
  have hmem := mem_transitionsOf.mp (latest_mem hlatest)
  refine ⟨latest_mem hlatest, fun row hrow hnamed => ?_⟩
  -- a predecessor is a row of the same activation, so the identity fixes the activation
  have hself : row ∈ transitionsOf db row.activationNonce := mem_transitionsOf.mpr ⟨hrow, rfl⟩
  obtain ⟨front, back, hsplit⟩ := List.append_of_mem hself
  have hline := h.linear row.activationNonce
  rw [hsplit] at hline
  obtain ⟨parent, hparent, hid⟩ := Option.map_eq_some_iff.mp (linear_parent hline hnamed)
  have hlisted : parent ∈ transitionsOf db row.activationNonce := by
    rw [hsplit]
    exact List.mem_append_left _ (List.mem_of_getLast? hparent)
  obtain ⟨hparentRow, hparentNonce⟩ := mem_transitionsOf.mp hlisted
  have hsame : parent = tip := Table.eq_of_key hparentRow hmem.1 hid
  have hnonce : row.activationNonce = nonce := by rw [← hparentNonce, hsame, hmem.2]
  have htip := (linear_tip (h.linear nonce) (transitionsOf_nodup nonce)).mpr
    ((latestTransition_eq h nonce).symm.trans hlatest)
  exact htip.2 row (hnonce ▸ hself) hnamed

theorem laws_of_chained (h : Chained db) : ChainLaws db where
  line nonce := ⟨_, List.Perm.refl _, h.linear nonce⟩
  latest nonce hne := by
    cases hlatest : latestTransition db nonce with
    | none => exact absurd (latest_eq_none.mp hlatest) hne
    | some tip =>
      refine ⟨tip, chainTip_latest h hlatest, fun other hother => ?_, rfl, ?_⟩
      · have htip := (linear_tip (h.linear nonce) (transitionsOf_nodup nonce)).mp
          ⟨hother.1, fun a ha => hother.2 a (mem_transitionsOf.mp ha).1⟩
        rw [latestTransition_eq h, htip] at hlatest
        exact Option.some.inj hlatest
      · rw [latestState, hlatest]
        rfl
  current hne := by
    cases hcurrent : currentTransition db with
    | none =>
      have hempty := latest_eq_none.mp hcurrent
      obtain ⟨row, rest, hrows⟩ := List.exists_cons_of_ne_nil hne
      have hrow : row ∈ db.transitions.rows := hrows ▸ List.mem_cons_self
      have hkept := List.filter_eq_nil_iff.mp hempty row hrow
      rw [decide_eq_true_iff] at hkept
      exact absurd ⟨h.manifold row hrow, h.attested row hrow⟩ hkept
    | some tip => exact ⟨tip, chainTip_latest h (currentTransition_latest h hcurrent).2, rfl⟩
  loaded locked hload := by
    obtain ⟨row, attestation, hloaded⟩ := loadCurrentState_ok hload
    have htip := chainTip_latest h (currentTransition_latest h hloaded.current).2
    exact ⟨row, hloaded.nonce ▸ htip, hloaded.transitionId, hloaded.state⟩

end Invariant

section Steps
variable {boundary : Boundary} {db next : ActivationDatabase} {row : Transition}

theorem chained_insertOnce (h : Chained db) (hrow : Appendable db row)
    (hattested : row.attestationId.isSome = true) (hinsert : insertOnce db row = .ok next) :
    Chained next ∧ (next = db ∨ next.transitions.rows = db.transitions.rows ++ [row]) := by
  rcases insertOnce_ok hinsert with rfl | ⟨hrefers, transitions, htable, rfl⟩
  · exact ⟨h, .inl rfl⟩
  · have hrows := (Table.insert?_eq_some.mp htable).2
    obtain ⟨id, hid⟩ := Option.isSome_iff_exists.mp hattested
    obtain ⟨a, ha⟩ := Option.isSome_iff_exists.mp (hrefers.attestation id hid)
    obtain ⟨hmem, hkey⟩ := Table.find?_eq_some.mp ha
    refine ⟨chained_append h hrow hrows (fun _ ha => ha) ⟨a, hmem, ?_⟩, .inr hrows⟩
    rw [hid, ← hkey]

theorem chained_insertTransition (h : Chained db) (hrow : Appendable db row)
    (hattested : row.attestationId.isSome = true) (hinsert : insertTransition db row = .ok next) :
    Chained next ∧ (next = db ∨ next.transitions.rows = db.transitions.rows ++ [row]) := by
  rw [insertTransition] at hinsert
  by_cases hextend : Extendable db row.predecessorTransitionId
  · rw [if_pos hextend] at hinsert
    exact chained_insertOnce h hrow hattested hinsert
  · rw [if_neg hextend] at hinsert
    obtain rfl := Except.ok.inj hinsert
    exact ⟨h, .inl rfl⟩

theorem transitionsOf_of_same (hsame : next.transitions = db.transitions) (nonce : UUID) :
    transitionsOf next nonce = transitionsOf db nonce := by
  rw [transitionsOf, transitionsOf, hsame]

theorem appendable_of_same (hsame : next.transitions = db.transitions)
    (hrow : Appendable db row) : Appendable next row where
  manifold := hrow.manifold
  predecessor := by
    rw [hrow.predecessor, latestTransition, latestTransition, transitionsOf_of_same hsame]
  later := by
    rw [transitionsOf_of_same hsame]
    exact hrow.later

theorem appendable_phase (h : Chained db) {locked : LockedActivationState}
    {current : Transition} {attestation : SourceActivationAttestation}
    (hloaded : Loaded db locked current attestation) {nonce : UUID}
    (hnonce : locked.state.activationNonce = nonce) {dbNow : Instant}
    (hafter : After db nonce dbNow) (hsource : row.sourceId = manifoldSourceId)
    (hrowNonce : row.activationNonce = nonce)
    (hpredecessor : row.predecessorTransitionId = some locked.transitionId)
    (htime : row.transitionAtDb = dbNow) : Appendable db row where
  manifold := hsource
  predecessor := by
    have hlatest := (currentTransition_latest h hloaded.current).2
    rw [← hloaded.nonce, hnonce, ← hrowNonce] at hlatest
    rw [hlatest, hpredecessor, hloaded.transitionId]
    rfl
  later r hr := by
    obtain ⟨hmem, hsame⟩ := mem_transitionsOf.mp hr
    refine rank_lt_of_time ?_
    rw [htime]
    exact hafter r hmem (hsame.trans hrowNonce)

theorem chained_restore (h : Chained db) {locked : LockedActivationState} {current : Transition}
    {attestation : SourceActivationAttestation} (hloaded : Loaded db locked current attestation)
    {context : PhaseContext} (hlocked : context.locked = locked)
    (hnonce : locked.state.activationNonce = context.activationNonce)
    (hafter : After db context.activationNonce context.dbNow) {output : ActivationOutput}
    {value : RestoreWrite} (hdb : context.db = db)
    (heffect : Restoring context output next value) (hpair : PairOrdered db output.receiptSha256) :
    Chained next := by
  obtain ⟨mid, hfirst, hsecond⟩ := persistRestore_ok heffect.persisted
  rw [hdb] at hfirst
  have hunlinked : Chained { db with source := unlinked } :=
    chained_of_same h rfl (fun _ ha => ha)
  have hidentity := heffect.identity
  have hdeactivated : Appendable db value.deactivated :=
    appendable_phase h hloaded hnonce hafter rfl (by
      rw [RestoreWrite.deactivated, TransitionIdentity.row, hidentity]
      rfl) (by
      rw [RestoreWrite.deactivated, TransitionIdentity.row, hidentity, ← hlocked]
      rfl) heffect.dbNow
  have hsame : { db with source := unlinked }.transitions = db.transitions := rfl
  obtain ⟨hmid, hcases⟩ := chained_insertTransition hunlinked
    (appendable_of_same hsame hdeactivated) rfl hfirst
  have hid : value.deactivated.id = deactivatedIdentity output.receiptSha256 :=
    heffect.deactivatedId
  rcases hcases with rfl | hrows
  · -- without the first row nothing has its identity, so the second one selects no row
    have hmissing : ¬Extendable { db with source := unlinked }
        value.restoreWriting.predecessorTransitionId := by
      rintro ⟨⟨prior, hprior, hname⟩, _⟩
      refine hpair.fresh prior hprior ?_
      rw [← hid]
      exact Option.some.inj hname
    rw [insertTransition, if_neg hmissing] at hsecond
    rw [← Except.ok.inj hsecond]
    exact hmid
  · have hnonces : value.restoreWriting.activationNonce = value.deactivated.activationNonce := rfl
    have htimes : value.deactivated.transitionAtDb = value.restoreWriting.transitionAtDb := rfl
    have hlists := transitionsOf_append hrows value.deactivated.activationNonce
    rw [if_pos rfl] at hlists
    have hlast : latestTransition mid value.restoreWriting.activationNonce =
        some value.deactivated := by
      rw [hnonces, latestTransition_eq hmid, hlists]
      simp
    have hlater : rank value.deactivated < rank value.restoreWriting := by
      refine rank_lt_of_id htimes ?_
      rw [hid]
      have hwritten : value.restoreWriting.id = transitionId output.receiptSha256 := by
        rw [RestoreWrite.restoreWriting, TransitionIdentity.row, hidentity]
        rfl
      rw [hwritten]
      exact hpair.ordered
    have happend : Appendable mid value.restoreWriting := by
      refine ⟨rfl, by rw [hlast]; rfl, fun r hr => ?_⟩
      rw [hnonces, hlists] at hr
      rcases List.mem_append.mp hr with hr | hr
      · exact (hdeactivated.later r hr).trans hlater
      · rw [List.mem_singleton.mp hr]
        exact hlater
    exact (chained_insertTransition hmid happend rfl hsecond).1

theorem chained_phase (h : Chained db) {request : ActivateRequest} {dbNow statementAt : Instant}
    {output : ActivationOutput}
    (hactivate : activate boundary request db dbNow statementAt = .ok (output, next))
    (horder : InOrder boundary db (.phase request dbNow statementAt)) : Chained next := by
  obtain ⟨hafter, hpairs⟩ := horder
  obtain ⟨locked, hlocked, hnonce, haccepted⟩ := activate_ok hactivate
  obtain ⟨current, attestation, hloaded⟩ := loadCurrentState_ok hlocked
  obtain ⟨phase, nonce, sha⟩ := request
  cases haccepted with
  | reserve value heffect =>
    obtain ⟨mid, hcadence, hinsert⟩ := persistReserve_ok heffect.persisted
    have hidentity := heffect.identity
    have htable : mid.transitions = db.transitions ∧ mid.attestations = db.attestations := by
      rcases insertCadence_ok hcadence with rfl | ⟨epochs, _, rfl⟩ <;> exact ⟨rfl, rfl⟩
    have hmid : Chained mid := chained_of_same h htable.1 (fun _ ha => htable.2 ▸ ha)
    refine (chained_insertTransition hmid (appendable_of_same htable.1
      (appendable_phase h hloaded hnonce hafter rfl ?_ ?_ ?_)) rfl hinsert).1
    · exact congrArg TransitionIdentity.activationNonce hidentity
    · exact congrArg some (congrArg TransitionIdentity.predecessorTransitionId hidentity)
    · exact heffect.dbNow
  | commit receipt anchor value heffect =>
    have hidentity := heffect.identity
    have hnonces := congrArg TransitionIdentity.activationNonce hidentity
    have hnames := congrArg some (congrArg TransitionIdentity.predecessorTransitionId hidentity)
    rcases persistCommit_ok heffect.persisted with
      ⟨_, hinsert⟩ | ⟨_, authorizations, budgets, _, hinsert⟩
    · exact (chained_insertTransition h
        (appendable_phase h hloaded hnonce hafter rfl hnonces hnames heffect.dbNow) rfl hinsert).1
    · have hmid : Chained { db with
          authorizations := authorizations
          budgets := budgets
          source := value.activated } := chained_of_same h rfl (fun _ ha => ha)
      have hrow : Appendable db (activeRow value) :=
        appendable_phase h hloaded hnonce hafter rfl hnonces hnames heffect.dbNow
      have hsame : { db with
          authorizations := authorizations
          budgets := budgets
          source := value.activated }.transitions = db.transitions := rfl
      exact (chained_insertTransition hmid (appendable_of_same hsame hrow) rfl hinsert).1
  | reprepare value heffect =>
    obtain ⟨mid, hattestation, hinsert⟩ := persistReprepare_ok heffect.persisted
    have hidentity := heffect.identity
    have htable : mid.transitions = db.transitions ∧
        ∀ a ∈ db.attestations.rows, a ∈ mid.attestations.rows := by
      rcases insertAttestation_ok hattestation with rfl | ⟨prior, attestations, _, _, htable, rfl⟩
      · exact ⟨rfl, fun _ ha => ha⟩
      · refine ⟨rfl, fun a ha => ?_⟩
        rw [(Table.insert?_eq_some.mp htable).2]
        exact List.mem_append_left _ ha
    have hmid : Chained { mid with intents := rotateIntents value mid.intents } :=
      chained_of_same h htable.1 htable.2
    have hsame : { mid with intents := rotateIntents value mid.intents }.transitions =
        db.transitions := htable.1
    refine (chained_insertTransition hmid (appendable_of_same hsame
      (appendable_phase h hloaded hnonce hafter rfl ?_ ?_ ?_)) rfl hinsert).1
    · exact congrArg TransitionIdentity.activationNonce hidentity
    · exact congrArg some (congrArg TransitionIdentity.predecessorTransitionId hidentity)
    · exact heffect.dbNow
  | restore value heffect =>
    exact chained_restore h hloaded rfl hnonce hafter rfl heffect
      (hpairs _ _ _ rfl output next hactivate)

theorem chained_appending (h : Chained db) {context : MutationContext}
    {state : ActivationTransition} {startedAt : Instant} {after : ActivationDatabase → Outcome}
    (hafter : After db context.nonce startedAt)
    (hnext : ∀ appended, Chained appended → (∀ t, startedAt < t → After appended context.nonce t) →
      Chained (after appended).1) :
    Chained (context.appending db state startedAt after).1 := by
  rw [MutationContext.appending]
  cases happend : context.append db state startedAt with
  | error hold => exact h
  | ok appended =>
    have hrow : Appendable db (appendedRow context.nonce context.intentId context.attestationId
        ((latestTransition db context.nonce).map SourceActivationStateTransition.id) state
        startedAt) := by
      refine ⟨rfl, rfl, fun r hr => rank_lt_of_time ?_⟩
      obtain ⟨hmem, hnonce⟩ := mem_transitionsOf.mp hr
      exact hafter r hmem hnonce
    obtain ⟨hchained, hcases⟩ := chained_insertOnce h hrow rfl happend
    refine hnext appended hchained fun t ht r hr hnonce => ?_
    rcases hcases with rfl | hrows
    · exact (hafter r hr hnonce).trans ht
    · rw [hrows] at hr
      rcases List.mem_append.mp hr with hr | hr
      · exact (hafter r hr hnonce).trans ht
      · rw [List.mem_singleton.mp hr]
        exact ht

theorem chained_apply (h : Chained db) {context : MutationContext} {session : Session}
    (hafter : After db context.nonce session.first) (hlate : session.first < session.second) :
    Chained (apply db context session).1 := by
  rw [apply]
  split
  · exact h
  · refine chained_appending h hafter fun appended happended hlater => ?_
    split
    · exact happended
    · split
      · exact happended
      · exact chained_appending happended (hlater _ hlate) fun _ hdone _ => hdone

theorem chained_handshake (h : Chained db) {context : MutationContext} {session : Session}
    (hafter : After db context.nonce session.first) :
    Chained (handshake db context session).1 := by
  rw [handshake]
  split
  · exact h
  · split
    · exact h
    · split
      · exact chained_appending h hafter fun _ hdone _ => hdone
      · exact h

theorem chained_finalize (h : Chained db) {context : MutationContext} {session : Session}
    (hafter : After db context.nonce session.first) :
    Chained (finalize db context session).1 := by
  rw [finalize]
  split
  · exact h
  · split
    · exact h
    · exact h
    · split
      · exact h
      · split
        · exact chained_appending h hafter fun _ hdone _ => hdone
        · exact h

theorem writeBack_fst (db : ActivationDatabase) (session : Session) :
    (writeBack db session).1 = db := by
  rw [writeBack]
  split <;> rfl

theorem chained_restoreGithub (h : Chained db) {context : MutationContext} {session : Session}
    (hafter : After db context.nonce session.first) (hlate : session.first < session.second) :
    Chained (restoreGithub db context session).1 := by
  rw [restoreGithub]
  split
  · exact h
  · split
    · split
      · exact h
      · split
        · refine chained_appending h hafter fun appended happended hlater => ?_
          split
          · exact happended
          · refine chained_appending happended (hlater _ hlate) fun done hdone _ => ?_
            rw [writeBack_fst]
            exact hdone
        · exact h
    · split
      · rw [writeBack_fst]
        exact h
      · exact h

theorem ensureIntent_ok {nonce intentId attestationId : UUID} {payload : BindingPayload}
    {prestateSha : Digest}
    (h : ensureIntent db nonce payload prestateSha attestationId = .ok (next, intentId)) :
    ∃ intents, next = { db with intents := intents } := by
  obtain ⟨_, h⟩ := require_bind.mp h
  obtain ⟨inserted, hinsert, h⟩ := bind_eq_ok.mp h
  obtain ⟨_, _, h⟩ := bind_eq_ok.mp h
  obtain ⟨_, h⟩ := require_bind.mp h
  obtain ⟨rfl, _⟩ := Prod.mk.inj (Except.ok.inj h)
  rw [insertIntent] at hinsert
  split at hinsert
  · exact ⟨_, (Except.ok.inj hinsert).symm⟩
  · obtain ⟨_, hinsert⟩ := require_bind.mp hinsert
    obtain ⟨intents, _, hinsert⟩ := bind_eq_ok.mp hinsert
    exact ⟨intents, (Except.ok.inj hinsert).symm⟩

theorem chained_mutate (h : Chained db) {args : MutationArgs} {session : Session}
    (hafter : After db args.activationNonce session.first)
    (hlate : session.first < session.second) : Chained (mutate db args session).1 := by
  rw [mutate]
  split
  · exact h
  · split
    · exact h
    · rename_i hensured
      obtain ⟨intents, rfl⟩ := ensureIntent_ok hensured
      have hdb : Chained { db with intents := intents } :=
        chained_of_same h rfl (fun _ ha => ha)
      dsimp only
      split
      · exact chained_apply hdb hafter hlate
      · exact chained_handshake hdb hafter
      · exact chained_finalize hdb hafter
      · exact chained_restoreGithub hdb hafter hlate

theorem chained_perform (h : Chained db) {operation : Operation}
    (horder : InOrder boundary db operation) : Chained (perform boundary db operation) := by
  cases operation with
  | phase request dbNow statementAt =>
    rw [perform]
    cases hactivate : activate boundary request db dbNow statementAt with
    | error hold => exact h
    | ok result => exact chained_phase h hactivate horder
  | mutation args session => exact chained_mutate h horder.1 horder.2

end Steps

section Results

/-- In a history whose transactions start behind the transitions they extend, and whose
    restores write their pair in the order of their identities, the transitions of every
    activation are one line and both readers find its end. -/
theorem current_state_is_tip (boundary : Boundary) {db : ActivationDatabase} (hstart : Migrated db)
    (operations : List Operation)
    (horder : Meets (step boundary) (InOrder boundary) db operations) :
    ChainLaws (run (step boundary) db operations) := by
  refine laws_of_chained (run_invariant_of ?_ (chained_migrated hstart) horder)
  intro db operation next hchained hin hstep
  obtain rfl := Except.ok.inj hstep
  exact chained_perform hchained hin

end Results

section Sample

def sampleNonce : UUID := BitVec.ofNat 128 0x5f0c2a4e9b1d4c6f8a3e7d2b1c0f9e8d

def sampleAttestationId : UUID := BitVec.ofNat 128 0x2b7e151628ae4d2aabf7158809cf4f3c

def sampleBoundary : Boundary where
  attestation := ⟨fun _ => none, fun _ => []⟩
  evidence := ⟨fun _ => none, fun _ => []⟩
  freeTier := ⟨fun _ => none, fun _ => []⟩
  fromisoformat _ := none

def sampleStart : ActivationDatabase where
  source := unlinked
  attestations := ⟨[{
    id := sampleAttestationId
    sourceId := manifoldSourceId
    activationNonce := sampleNonce
    attestationGeneration := 1
    attestationSha256 := 9
    predecessorAttestationSha256 := none
    preparedAt := 0 }], by decide⟩
  intents := ⟨[], by decide⟩
  epochs := ⟨[], by decide⟩
  authorizations := ⟨[], by decide⟩
  budgets := ⟨[], by decide⟩
  transitions := ⟨[{
    id := 1
    activationNonce := sampleNonce
    sourceId := manifoldSourceId
    attestationId := some sampleAttestationId
    bindingIntentId := none
    predecessorTransitionId := none
    state := .prepared
    receiptSha256 := 7
    transitionAtDb := 0 }], by decide⟩

def samplePayload (scope : String) : JsonDocument :=
  [("activation_nonce".toList, UUID.json sampleNonce),
   ("protected_json".toList, .ofString "[]"),
   ("scope_version".toList, .ofString scope),
   ("source_ids".toList, .ofString "manifold")]

def sampleApply : Operation :=
  .mutation {
    command := .applyGithub
    activationNonce := sampleNonce
    payloadReceipt := samplePayload "v2"
    prestateReceipt := samplePayload "v1"
    attestationId := sampleAttestationId } {
    scopeVersion := some "v1".toList
    sourceIds := some "manifold".toList
    deploymentActivationAt := none
    writes := true
    first := seconds 10
    second := seconds 11
    interrupted := false }

theorem sampleStart_migrated : Migrated sampleStart where
  prepared := by decide
  manifold := by decide
  attested := by decide
  distinct := by decide

theorem current_state_is_tip_sample :
    ChainLaws (run (step sampleBoundary) sampleStart [sampleApply]) := by
  refine current_state_is_tip sampleBoundary sampleStart_migrated _ ⟨⟨?_, ?_⟩, trivial⟩
  · intro row hrow _
    obtain rfl := List.mem_singleton.mp hrow
    decide
  · decide

end Sample

end PredictionMarketMonitor.ActivationChain
