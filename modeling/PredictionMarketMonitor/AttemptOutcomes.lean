import PredictionMarketMonitor.CompletionReplay
import PredictionMarketMonitor.PublicationOrder

set_option autoImplicit false

/-!
# The outcome of a command over its attempts

A retry claims only the sources that are still retryable, and the status of a
command is the aggregate of the runs of one attempt: where both together keep
count of every source of the command, and where they lose one.
-/
namespace PredictionMarketMonitor.AttemptOutcomes

open CanonicalJson CivilTime ClaimPolicy CollectionBase CollectionModels CommandLifecycle
open CommandStore Completion CompletionReplay CompletionStore ControlPlane ControlPlaneTables
open Dispatch FallibleSteps KeyedTable PageStore PageStreams PlanEffects PublicationOrder
open ReachableStores Sha256 StaleRecovery

section Outcomes

/-- The last run of a source under a command has succeeded. -/
def LastSucceeded (db : Database) (commandId sourceId : UUID) : Prop :=
  ∃ r ∈ db.runs.rows,
    (r.commandId = commandId ∧ r.sourceId = sourceId ∧ r.status = .succeeded) ∧
      ∀ q ∈ db.runs.rows, q.commandId = commandId → q.sourceId = sourceId → q.attempt ≤ r.attempt

instance (db : Database) (commandId sourceId : UUID) :
    Decidable (LastSucceeded db commandId sourceId) :=
  inferInstanceAs (Decidable (∃ r ∈ db.runs.rows, _))

/-- Each source of a command has a run in its attempt, or has succeeded before. -/
def Represented (db : Database) (row : CommandRow) : Prop :=
  ∀ sourceId ∈ row.state.sourceIds,
    (∃ r ∈ db.runsOf row.state.id row.state.attempt, r.sourceId = sourceId) ∨
      LastSucceeded db row.state.id sourceId

instance (db : Database) (row : CommandRow) : Decidable (Represented db row) :=
  inferInstanceAs (Decidable (∀ sourceId ∈ row.state.sourceIds, _))

/-- A running command whose runs all wait for their completion. -/
def AllReady (db : Database) (row : CommandRow) : Prop :=
  row.state.status = .running ∧ db.runsOf row.state.id row.state.attempt ≠ [] ∧
    ∀ r ∈ db.runsOf row.state.id row.state.attempt, r.completionReadyAt.isSome = true

/-- The runs of a command are of its sources, and it has the status of a success
    exactly when each of its sources ended in one. -/
structure Accounted (db : Database) : Prop where
  own : ∀ r ∈ db.runs, ∀ row, db.commands.find? r.commandId = some row →
    r.sourceId ∈ row.state.sourceIds
  status : ∀ row ∈ db.commands, row.state.status = .succeeded ↔
    ∀ sourceId ∈ row.state.sourceIds, LastSucceeded db row.state.id sourceId

theorem lastSucceeded_congr {db next : Database} {commandId : UUID}
    (h : ∀ r, r.commandId = commandId → (r ∈ next.runs ↔ r ∈ db.runs)) (sourceId : UUID) :
    LastSucceeded next commandId sourceId ↔ LastSucceeded db commandId sourceId := by
  constructor
  · rintro ⟨r, hr, hown, hlast⟩
    refine ⟨r, (h r hown.1).mp hr, hown, fun q hq hcommand hsource => ?_⟩
    exact hlast q ((h q hcommand).mpr hq) hcommand hsource
  · rintro ⟨r, hr, hown, hlast⟩
    refine ⟨r, (h r hown.1).mpr hr, hown, fun q hq hcommand hsource => ?_⟩
    exact hlast q ((h q hcommand).mp hq) hcommand hsource

theorem lastSucceeded_rewrites {db next : Database} {f : RunState → RunState}
    (h : Rewrites db next f) {commandId : UUID}
    (hstatus : ∀ r ∈ db.runs, r.commandId = commandId → (f r).status = r.status)
    (sourceId : UUID) :
    LastSucceeded next commandId sourceId ↔ LastSucceeded db commandId sourceId := by
  constructor
  · rintro ⟨q, hq, ⟨hcommand, hsource, hsucceeded⟩, hlast⟩
    obtain ⟨r, hr, rfl⟩ := (mem_rewrites h).mp hq
    obtain ⟨_, hrc, hrs, _, hra⟩ := h.claim r hr
    have hrcommand : r.commandId = commandId := hrc.symm.trans hcommand
    refine ⟨r, hr, ⟨hrcommand, hrs.symm.trans hsource,
      (hstatus r hr hrcommand).symm.trans hsucceeded⟩, fun t ht htc hts => ?_⟩
    obtain ⟨_, htfc, htfs, _, hta⟩ := h.claim t ht
    rw [← hra, ← hta]
    exact hlast (f t) ((mem_rewrites h).mpr ⟨t, ht, rfl⟩) (htfc.trans htc) (htfs.trans hts)
  · rintro ⟨r, hr, ⟨hcommand, hsource, hsucceeded⟩, hlast⟩
    obtain ⟨_, hrc, hrs, _, hra⟩ := h.claim r hr
    refine ⟨f r, (mem_rewrites h).mpr ⟨r, hr, rfl⟩, ⟨hrc.trans hcommand, hrs.trans hsource,
      (hstatus r hr hcommand).trans hsucceeded⟩, fun q hq hqc hqs => ?_⟩
    obtain ⟨t, ht, rfl⟩ := (mem_rewrites h).mp hq
    obtain ⟨_, htc, hts, _, hta⟩ := h.claim t ht
    rw [hra, hta]
    exact hlast t ht (htc.symm.trans hqc) (hts.symm.trans hqs)

end Outcomes

section Moves
variable {svc : Service} {nfc : Text → Text} {db next : Database} {row : CommandRow}

theorem accounted_rewrites {f : RunState → RunState} (h : Accounted db)
    (hrewrites : Rewrites db next f) (hstatus : ∀ r ∈ db.runs, (f r).status = r.status)
    (hcommands : next.commands = db.commands) : Accounted next where
  own := by
    intro q hq row hrow
    obtain ⟨r, hr, rfl⟩ := (mem_rewrites hrewrites).mp hq
    obtain ⟨_, hcommand, hsource, _⟩ := hrewrites.claim r hr
    rw [hcommands, hcommand] at hrow
    rw [hsource]
    exact h.own r hr row hrow
  status := by
    intro row hrow
    rw [hcommands] at hrow
    simp only [h.status row hrow, lastSucceeded_rewrites hrewrites fun r hr _ => hstatus r hr]

theorem accounted_beatRuns (h : Accounted db) (commandId : UUID) (attempt : ℕ)
    (heartbeatAt : Instant) : Accounted (beatRuns db commandId attempt heartbeatAt) := by
  let beat (r : RunState) : RunState :=
    if r.commandId = commandId ∧ r.attempt = attempt then { r with heartbeatAt := heartbeatAt }
    else r
  have hclaim (r : RunState) : SameClaim r (beat r) := by
    simp only [beat]
    split
    · exact ⟨rfl, rfl, rfl, rfl, rfl⟩
    · exact sameClaim_refl r
  have hstatus (r : RunState) : (beat r).status = r.status := by
    simp only [beat]
    split <;> rfl
  exact accounted_rewrites h (f := beat)
    ⟨rfl, fun r _ => hclaim r, fun r _ hrunning => (hstatus r).symm.trans hrunning⟩
    (fun r _ => hstatus r) rfl

theorem accounted_attachSkip {op : SkipDecisionOperation} {clock : ℕ → Instant} {ids : FreshIds}
    {attached : Database × ℕ × Bytes} (h : Accounted db)
    (hattach : attachSkipDecision svc db op clock ids = .ok attached) : Accounted attached.1 := by
  rcases attachSkipDecision_cases hattach with hsame | ⟨proved, run, current, hwritten⟩
  · rw [hsame]
    exact h
  · obtain ⟨skipObservations, hnext⟩ := hwritten.written
    obtain ⟨_, _, _, _, hframe⟩ := attachProof_frame hwritten.attaches
    have hrows := attachProof_runs hwritten.attaches
    let mark (r : RunState) : RunState :=
      if r.id = run.id then markSkip op.httpStatus ids.skipDecision r else r
    have hmark (r : RunState) : SameClaim r (mark r) ∧ (mark r).status = r.status := by
      simp only [mark, markSkip]
      split_ifs
      · split <;> exact ⟨⟨rfl, rfl, rfl, rfl, rfl⟩, rfl⟩
      · exact ⟨sameClaim_refl r, rfl⟩
    refine accounted_rewrites h (f := mark)
      ⟨?_, fun r _ => (hmark r).1, fun r _ hrunning => (hmark r).2.symm.trans hrunning⟩
      (fun r _ => (hmark r).2) ?_
    · rw [hnext]
      exact hrows
    · rw [hnext, hframe]

theorem accounted_setCommand {state : CommandState} (h : Accounted db)
    (hrow : db.commands.find? row.state.id = some row) (hid : SameIdentity row.state state)
    (hstatus : state.status = .succeeded ↔ row.state.status = .succeeded) :
    Accounted (db.setCommand state) := by
  have hlocated : db.commands.find? state.id = some row := by
    rw [hid.1]
    exact hrow
  constructor
  · intro r hr other hother
    rw [find_setCommand hlocated hid] at hother
    split at hother
    · rename_i heq
      obtain rfl := Option.some.inj hother
      have hkept := h.own r hr row (by rw [heq, hlocated])
      rw [← hid.2.2.1] at hkept
      exact hkept
    · exact h.own r hr other hother
  · intro other hother
    rcases find_of_setCommand hlocated hid hother with ⟨_, rfl⟩ | ⟨_, hold⟩
    · have hkept := h.status row (Table.find?_eq_some.mp hrow).1
      rw [← hid.1, ← hid.2.2.1, ← hstatus] at hkept
      exact hkept
    · exact h.status other hold

theorem accounted_materialize (hdb : StoreInvariant db) (h : Accounted db)
    (hsources : row.state.sourceIds ≠ []) (hissued : materialize db row = .ok next) :
    Accounted next := by
  obtain ⟨hqueued, hissued⟩ := require_bind.mp hissued
  obtain ⟨commands, hcommands, hissued⟩ := bind_eq_ok.mp hissued
  obtain rfl := Except.ok.inj hissued
  have hinsert := present_eq_ok.mp hcommands
  have hnew : ∀ r ∈ db.runs, r.commandId ≠ row.state.id := by
    intro r hr heq
    obtain ⟨owner, howner, _⟩ := hdb.owned r hr
    rw [heq, (Table.insert?_eq_some.mp hinsert).1] at howner
    cases howner
  constructor
  · intro r hr other hother
    change commands.find? r.commandId = some other at hother
    rw [Table.find?_insert hinsert, if_neg (Ne.symm (hnew r hr))] at hother
    exact h.own r hr other hother
  · intro other hother
    rcases (Table.mem_insert hinsert).mp hother with hold | rfl
    · exact h.status other hold
    · refine iff_of_false (by simp [hqueued.1]) fun hall => ?_
      obtain ⟨sourceId, hsource⟩ := List.exists_mem_of_ne_nil _ hsources
      obtain ⟨r, hr, ⟨hcommand, _⟩, _⟩ := hall sourceId hsource
      exact hnew r hr hcommand

theorem accounted_created {state : CommandState} {lease : Digest} {now : Instant}
    {policies : List ClaimSourcePolicy} {ids : FreshIds} {sourceId : UUID} {run : RunState}
    (h : Accounted db) (hrow : db.commands.find? state.id = some row)
    (hopen : row.state.status ≠ .succeeded) (hsource : sourceId ∈ row.state.sourceIds)
    (hcreated : RunCreated nfc db state lease now policies ids sourceId next run) :
    Accounted next := by
  obtain ⟨_, _, hframe⟩ := hcreated.frame
  have hcommands : next.commands = db.commands := by rw [hframe]
  have hmem (q : RunState) : q ∈ next.runs ↔ q ∈ db.runs ∨ q = run :=
    Table.mem_insert hcreated.inserted
  obtain ⟨hcommand, hrunSource, _, _, hlive⟩ := hcreated.columns
  constructor
  · intro r hr other hother
    rw [hcommands] at hother
    rcases (hmem r).mp hr with hold | rfl
    · exact h.own r hold other hother
    · rw [hcommand, hrow] at hother
      obtain rfl := Option.some.inj hother
      rw [hrunSource]
      exact hsource
  · intro other hother
    rw [hcommands] at hother
    by_cases heq : other.state.id = state.id
    · have hsame := Table.find?_of_mem hother
      rw [heq, hrow] at hsame
      obtain rfl := Option.some.inj hsame
      refine iff_of_false hopen fun hall => hopen ((h.status row hother).mpr fun source hs => ?_)
      -- the new run is running, so a last run that succeeded was there before
      obtain ⟨r, hr, hown, hlast⟩ := hall source hs
      rcases (hmem r).mp hr with hold | rfl
      · exact ⟨r, hold, hown, fun q hq => hlast q ((hmem q).mpr (.inl hq))⟩
      · rw [hlive] at hown
        cases hown.2.2
    · have hkept (r : RunState) (hr : r.commandId = other.state.id) :
          r ∈ next.runs ↔ r ∈ db.runs := by
        rw [hmem]
        refine or_iff_left fun hrun => heq ?_
        rw [← hr, hrun, hcommand]
      simp only [h.status other hother, lastSucceeded_congr hkept]

theorem eligible_subset {commandId : UUID} {sourceIds eligible : List UUID}
    (h : eligibleRetrySources db commandId sourceIds = .ok eligible) : eligible ⊆ sourceIds := by
  induction sourceIds generalizing eligible with
  | nil =>
    obtain rfl := Except.ok.inj h
    exact List.Subset.refl _
  | cons sourceId rest ih =>
    obtain ⟨_, _, h⟩ := bind_eq_ok.mp h
    obtain ⟨tail, htail, h⟩ := bind_eq_ok.mp h
    obtain rfl := Except.ok.inj h
    split
    · exact List.cons_subset_cons _ (ih htail)
    · exact List.subset_cons_of_subset _ (ih htail)

theorem accounted_claimEach {state : CommandState} {lease : Digest} {now statementNow : Instant}
    {policies : List ClaimSourcePolicy} {ids : FreshIds}
    {commands : Table (fun row : CommandRow => row.state.id)}
    (hrow : commands.find? state.id = some row) (hopen : row.state.status ≠ .succeeded)
    {sourceIds : List UUID} (hsources : sourceIds ⊆ row.state.sourceIds)
    {claimed : Database × List RunState} (h : Accounted { db with commands := commands })
    (hclaims : claimEach nfc state lease now statementNow policies ids db sourceIds =
      .ok claimed) : Accounted { claimed.1 with commands := commands } := by
  induction sourceIds generalizing db claimed with
  | nil =>
    obtain rfl := Except.ok.inj hclaims
    exact h
  | cons sourceId rest ih =>
    obtain ⟨first, hfirst, hclaims⟩ := bind_eq_ok.mp hclaims
    obtain ⟨others, hothers, hclaims⟩ := bind_eq_ok.mp hclaims
    obtain rfl := Except.ok.inj hclaims
    obtain ⟨hsource, hrest⟩ := List.cons_subset.mp hsources
    have hcreated := claimRun_created hfirst
    obtain ⟨runs, checkpoints, hframe⟩ := hcreated.frame
    have hmoved : RunCreated nfc { db with commands := commands } state lease now policies ids
        sourceId { first.1 with commands := commands } first.2 :=
      ⟨hcreated.checkpoint, hcreated.columns, hcreated.kept, hcreated.single, hcreated.exclusive,
        hcreated.inserted, runs, checkpoints, by rw [hframe]⟩
    have hnext := ih hrest (accounted_created h hrow hopen hsource hmoved) hothers
    exact hnext

theorem accounted_of_tables (h : Accounted db) (hcommands : next.commands = db.commands)
    (hruns : next.runs = db.runs) : Accounted next where
  own := by
    rw [hcommands, hruns]
    exact h.own
  status := by
    have hkept (r : RunState) : r ∈ next.runs ↔ r ∈ db.runs := by rw [hruns]
    rw [hcommands]
    intro row hrow
    simp only [h.status row hrow, lastSucceeded_congr fun r _ => hkept r]

theorem accounted_claim {commandId : UUID} {credentials : ClaimCredentials}
    {sourceIds : List UUID} {clock : ℕ → Instant} {ids : FreshIds}
    {claimed : Database × ClaimResult} (h : Accounted db)
    (hsources : ∀ row ∈ db.commands.find? commandId,
      row.sourceSetHash = collectionSourceSetHash svc.nfc sourceIds →
      sourceIds ⊆ row.state.sourceIds)
    (hclaim : claim svc db commandId credentials sourceIds clock ids = .ok claimed) :
    Accounted claimed.1 := by
  obtain ⟨decided, row, hclaimed⟩ := claim_cases hclaim
  obtain ⟨_, hframe⟩ := claimSourcePolicies_frame hclaimed.policies
  have hkey : row.state.id = commandId := (Table.find?_eq_some.mp hclaimed.located).2
  have hpresented := hsources row hclaimed.located hclaimed.sources
  obtain ⟨hopen, hid, hrunning, hattempt⟩ : row.state.status ≠ .succeeded ∧
      SameIdentity row.state claimed.2.command ∧ claimed.2.command.status = .running ∧
      claimed.2.command.attempt = row.state.attempt := by
    obtain ⟨_, ⟨hs, hnext⟩ | ⟨hs, hnext⟩⟩ := claimCommand_cases hclaimed.command
    · rw [hnext]
      exact ⟨by rcases hs with hs | hs <;> simp [hs], ⟨rfl, rfl, rfl, rfl⟩, rfl, rfl⟩
    · rw [hnext]
      exact ⟨by simp [hs], ⟨rfl, rfl, rfl, rfl⟩, hs, rfl⟩
  have hdecided : Accounted decided.1 := by
    rw [hframe]
    exact accounted_of_tables h rfl rfl
  have hrow : decided.1.commands.find? row.state.id = some row := by
    rw [hframe, hkey]
    exact hclaimed.located
  have hset : Accounted (decided.1.setCommand claimed.2.command) :=
    accounted_setCommand hdecided hrow hid (iff_of_false (by simp [hrunning]) hopen)
  rcases hclaimed.runs with ⟨_, _, hnext⟩ |
    ⟨_, lease, eligible, created, _, heligible, hcreated, _, hnext⟩
  · rw [hnext]
    exact hset
  · have hstored : decided.1.commands.find? claimed.2.command.id = some row := by
      rw [hid.1]
      exact hrow
    have hsetRow := find_setCommand hstored hid row.state.id
    rw [if_pos hid.1.symm] at hsetRow
    have hall := accounted_claimEach hsetRow (by simp [hrunning])
      (fun s hs => by
        change s ∈ claimed.2.command.sourceIds
        rw [hid.2.2.1]
        exact hpresented (eligible_subset heligible hs)) hset hcreated
    have hcommands : created.commands = decided.1.commands := by
      obtain ⟨_, _, hcreatedFrame⟩ := claimEach_frame hcreated
      exact congrArg (·.commands) hcreatedFrame
    rw [hnext]
    refine accounted_of_tables hall ?_ rfl
    simp only [Database.setCommand, hcommands]

end Moves

section Plans
variable {svc : Service} {db next : Database} {commandId : UUID} {now : Instant} {allow : Bool}
  {context : CompletionContext} {row : CommandRow} {plan : CompletionPlan}
  {results : List (RunState × Option PublicationDraft)} {command : CommandState}

theorem commandStatus_succeeded (h : Finalizes svc.nfc context plan results) :
    plan.commandStatus = .succeeded ↔ ∀ s ∈ plan.runs, s.status = .succeeded := by
  rcases h.aggregate with haggregate | ⟨hretry, hmem⟩
  · obtain ⟨_, _, hstatus⟩ := aggregateCommandStatus_eq_ok.mp haggregate
    rw [hstatus, aggregateOf]
    constructor
    · intro hsucceeded s hs
      split_ifs at hsucceeded with hall
      exact hall s.status (List.mem_map_of_mem hs)
    · intro hall
      rw [if_pos (List.forall_mem_map.mpr hall)]
  · obtain ⟨s, hs, hstatus⟩ := List.mem_map.mp hmem
    refine iff_of_false (by simp [hretry]) fun hall => ?_
    have hsucceeded := hall s hs
    rw [hstatus] at hsucceeded
    cases hsucceeded

theorem lastSucceeded_settled (hdb : StoreInvariant db)
    (hlocked : Locked db commandId context.command.attempt now allow context row)
    (hplan : Finalizes svc.nfc context plan results)
    (hpersisted : Persisted db context plan svc.retryJitterKey next command)
    (hall : ∀ s ∈ plan.runs, s.status = .succeeded) {sourceId : UUID}
    (hsource : (∃ r ∈ db.runsOf row.state.id row.state.attempt, r.sourceId = sourceId) ∨
      LastSucceeded db row.state.id sourceId) : LastSucceeded next row.state.id sourceId := by
  obtain ⟨hrow, hkey⟩ := Table.find?_eq_some.mp hlocked.located
  have hrewrites := rewrites_persisted hlocked hplan hpersisted
  have hlatest (q : RunState) (hq : q ∈ db.runs) (hcommand : q.commandId = row.state.id) :
      q.attempt ≤ row.state.attempt := by
    obtain ⟨owner, howner, howned⟩ := hdb.owned q hq
    rw [hcommand, hkey, hlocked.located] at howner
    obtain rfl := Option.some.inj howner
    exact howned.attempt
  by_cases hmine : ∃ r ∈ db.runsOf row.state.id row.state.attempt, r.sourceId = sourceId
  · obtain ⟨r, hr, rfl⟩ := hmine
    obtain ⟨hmem, hcommand, hattempt⟩ := mem_runsOf.mp hr
    obtain ⟨f, hf, rfl⟩ := (locked_mem hlocked).mpr
      ⟨hmem, hcommand.trans hkey, by rw [hlocked.command]; exact hattempt⟩
    obtain ⟨_, hfc, hfs, _, hfa⟩ := hrewrites.claim f.run hmem
    refine ⟨_, (mem_rewrites hrewrites).mpr ⟨f.run, hmem, rfl⟩, ⟨hfc.trans hcommand, hfs,
      hall _ (settledRun_finalizes hplan hf).1⟩, fun q hq hqc _ => ?_⟩
    obtain ⟨t, ht, rfl⟩ := (mem_rewrites hrewrites).mp hq
    obtain ⟨_, htc, _, _, hta⟩ := hrewrites.claim t ht
    rw [hta, hfa, hattempt]
    exact hlatest t ht (htc.symm.trans hqc)
  · obtain ⟨r, hr, ⟨hcommand, hrs, hsucceeded⟩, hlast⟩ := hsource.resolve_left hmine
    have hkept : settledRun plan.runs r = r := by
      rcases settledRun_cases hlocked hplan hr with ⟨_, hattempt, _⟩ | ⟨_, hsame⟩
      · exact absurd ⟨r, mem_runsOf.mpr ⟨hr, hcommand, hattempt⟩, hrs⟩ hmine
      · exact hsame
    refine ⟨r, (mem_rewrites hrewrites).mpr ⟨r, hr, hkept⟩, ⟨hcommand, hrs, hsucceeded⟩,
      fun q hq hqc hqs => ?_⟩
    obtain ⟨t, ht, rfl⟩ := (mem_rewrites hrewrites).mp hq
    obtain ⟨_, htc, hts, _, hta⟩ := hrewrites.claim t ht
    rw [hta]
    exact hlast t ht (htc.symm.trans hqc) (hts.symm.trans hqs)

/-- A run that a plan did not finish as a success is the last one of its source. -/
theorem not_lastSucceeded_settled (hdb : StoreInvariant db)
    (hlocked : Locked db commandId context.command.attempt now allow context row)
    (hplan : Finalizes svc.nfc context plan results)
    (hpersisted : Persisted db context plan svc.retryJitterKey next command)
    {f : RunCompletionFacts} (hf : f ∈ context.runs)
    (hfailed : (settledRun plan.runs f.run).status ≠ .succeeded) :
    ¬LastSucceeded next row.state.id f.run.sourceId := by
  obtain ⟨hrow, hkey⟩ := Table.find?_eq_some.mp hlocked.located
  have hrewrites := rewrites_persisted hlocked hplan hpersisted
  obtain ⟨hmem, hcommand, hattempt⟩ := (locked_mem hlocked).mp ⟨f, hf, rfl⟩
  obtain ⟨_, hfc, hfs, _, hfa⟩ := hrewrites.claim f.run hmem
  rintro ⟨q, hq, ⟨hqc, hqs, hsucceeded⟩, hlast⟩
  obtain ⟨r, hr, rfl⟩ := (mem_rewrites hrewrites).mp hq
  obtain ⟨_, hrc, hrs, _, hra⟩ := hrewrites.claim r hr
  have hrcommand : r.commandId = commandId := (hrc.symm.trans hqc).trans hkey
  obtain ⟨owner, howner, howned⟩ := hdb.owned r hr
  rw [hrcommand, hlocked.located] at howner
  obtain rfl := Option.some.inj howner
  have hle := hlast _ ((mem_rewrites hrewrites).mpr ⟨f.run, hmem, rfl⟩)
    ((hfc.trans hcommand).trans hkey.symm) hfs
  rw [hra, hfa, hattempt, hlocked.command] at hle
  have hsame : r = f.run := hdb.single r hr f.run hmem (hrcommand.trans hcommand.symm)
    (hrs.symm.trans hqs) (by
      rw [hattempt, hlocked.command]
      exact Nat.le_antisymm howned.attempt hle)
  rw [hsame] at hsucceeded
  exact hfailed hsucceeded

theorem accounted_persisted (hdb : StoreInvariant db) (h : Accounted db)
    (hlocked : Locked db commandId context.command.attempt now allow context row)
    (hplan : Finalizes svc.nfc context plan results)
    (hpersisted : Persisted db context plan svc.retryJitterKey next command)
    (hall : (∀ s ∈ plan.runs, s.status = .succeeded) → Represented db row) : Accounted next := by
  obtain ⟨hrow, hkey⟩ := Table.find?_eq_some.mp hlocked.located
  obtain ⟨hid, hstatus, _⟩ := completedCommand_fields hpersisted.completed
  rw [hlocked.command] at hid
  have hlocated : db.commands.find? command.id = some row := by
    rw [hid.1, hkey]
    exact hlocked.located
  have hrewrites := rewrites_persisted hlocked hplan hpersisted
  constructor
  · intro q hq other hother
    obtain ⟨r, hr, rfl⟩ := (mem_rewrites hrewrites).mp hq
    obtain ⟨_, hcommand, hsource, _⟩ := hrewrites.claim r hr
    rw [hpersisted.commands, hcommand, find_setCommand hlocated hid] at hother
    rw [hsource]
    split at hother
    · rename_i heq
      obtain rfl := Option.some.inj hother
      have hkept := h.own r hr row (by rw [heq, hlocated])
      rw [← hid.2.2.1] at hkept
      exact hkept
    · exact h.own r hr other hother
  · intro other hother
    rw [hpersisted.commands] at hother
    rcases find_of_setCommand hlocated hid hother with ⟨_, rfl⟩ | ⟨hne, hold⟩
    · change command.status = .succeeded ↔
        ∀ sourceId ∈ command.sourceIds, LastSucceeded next command.id sourceId
      rw [hstatus, commandStatus_succeeded hplan, hid.1, hid.2.2.1]
      refine ⟨fun hruns sourceId hsource => ?_, fun hlast s hs => ?_⟩
      · exact lastSucceeded_settled hdb hlocked hplan hpersisted hruns (hall hruns sourceId hsource)
      · by_contra hfailed
        obtain ⟨f, hf, hclaim, _⟩ := finalizes_origin hplan hs
        obtain ⟨hmem, hcommand, _⟩ := (locked_mem hlocked).mp ⟨f, hf, rfl⟩
        have hsettled : (settledRun plan.runs f.run).status = s.status := by
          rw [settledRun_of_mem (finalizes_distinct hplan) hs hclaim.1]
          rfl
        refine not_lastSucceeded_settled hdb hlocked hplan hpersisted hf
          (by rw [hsettled]; exact hfailed) (hlast _ (h.own f.run hmem row ?_))
        rw [hcommand]
        exact hlocked.located
    · have hkept (r : RunState) (hr : r ∈ db.runs) (hcommand : r.commandId = other.state.id) :
          (settledRun plan.runs r).status = r.status := by
        rcases settledRun_cases hlocked hplan hr with ⟨hmine, _⟩ | ⟨_, hsame⟩
        · refine absurd ?_ hne
          rw [← hcommand, hmine, hid.1, hkey]
        · rw [hsame]
      simp only [h.status other hold, lastSucceeded_rewrites hrewrites hkept]

theorem reports_succeeded {request : CompletionRequest}
    (h : prepareCompletion svc.nfc context request = .ok plan)
    (hall : ∀ s ∈ plan.runs, s.status = .succeeded) :
    ∀ o ∈ request.sourceOutcomes, o.terminalStatus = .succeeded := by
  obtain ⟨_, results, hplanned⟩ := prepareCompletion_eq_ok.mp h
  intro o ho
  have hmem := (planned_statuses hplanned o.terminalStatus).mpr (List.mem_map_of_mem ho)
  obtain ⟨s, hs, hstatus⟩ := List.mem_map.mp hmem
  exact hstatus.symm.trans (hall s hs)

theorem recovers_ready {key : Bytes}
    (h : prepareStaleRecovery svc.nfc context key = .ok (some plan))
    (hall : ∀ s ∈ plan.runs, s.status = .succeeded) :
    context.runs ≠ [] ∧ ∀ f ∈ context.runs, f.run.completionReadyAt.isSome = true := by
  obtain ⟨_, _, h⟩ := bind_eq_ok.mp h
  split at h
  · cases h
  rename_i hruns
  refine ⟨hruns, ?_⟩
  obtain ⟨released, hreleased, h⟩ := bind_eq_ok.mp h
  split at h
  · cases h
  obtain ⟨planned, hplanned, h⟩ := bind_eq_ok.mp h
  obtain rfl := Option.some.inj (Except.ok.inj h)
  obtain ⟨facts, hfacts, hplanned⟩ := bind_eq_ok.mp hplanned
  obtain ⟨outcomes, houtcomes, hplanned⟩ := bind_eq_ok.mp hplanned
  obtain ⟨base, hbase, hplanned⟩ := bind_eq_ok.mp hplanned
  have hbaseRuns : base.runs = planned.runs := by
    split at hplanned
    · obtain rfl := Except.ok.inj hplanned
      rfl
    · obtain rfl := Except.ok.inj hplanned
      rfl
  obtain ⟨results, hserver⟩ := prepareServerCompletion_eq_ok.mp hbase
  intro f hf
  obtain ⟨outcome, houtcome, hrecovery⟩ := forall₂_mem_left (mapM_forall₂.mp houtcomes) f hf
  obtain ⟨s, hs, hstatus⟩ := List.mem_map.mp
    ((planned_statuses hserver outcome.terminalStatus).mpr (List.mem_map_of_mem houtcome))
  rw [hbaseRuns] at hs
  have hsucceeded := hstatus.symm.trans (hall s hs)
  by_contra hunready
  rw [recoveryOutcome, if_neg hunready] at hrecovery
  obtain ⟨abandoned, habandoned, hrecovery⟩ := bind_eq_ok.mp hrecovery
  obtain rfl := Except.ok.inj hrecovery
  unfold abandonedStatus at habandoned
  split at habandoned
  · obtain rfl := Except.ok.inj habandoned
    cases hsucceeded
  · obtain rfl := Except.ok.inj habandoned
    cases hsucceeded
  · cases habandoned

end Plans

section Passes
variable {svc : Service} {db next : Database}

theorem markStale_succeeded {s t : CommandState} {check : StaleCheck}
    (h : markStale s check = .ok t) : t.status = .succeeded ↔ s.status = .succeeded := by
  rcases markStale_cases h with rfl | ⟨hs, rfl⟩ | ⟨hs, hrelease⟩
  · exact Iff.rfl
  · exact iff_of_false (by simp) (by rcases hs with hs | hs <;> simp [hs])
  · obtain ⟨status, _, rfl, hbudget⟩ := releaseAbandoned_eq_ok hrelease
    refine iff_of_false ?_ (by rcases hs with hs | hs <;> simp [hs])
    rcases hbudget with ⟨_, rfl⟩ | ⟨_, rfl⟩ <;> simp

theorem releaseCommand_succeeded {s t : CommandState} {now : Instant} {key : Bytes}
    (h : releaseCommand s now key = .ok t) : t.status = .succeeded ↔ s.status = .succeeded := by
  obtain ⟨state, hmark, hnext⟩ := bind_eq_ok.mp h
  split at hnext
  · exact (markStale_succeeded hnext).trans (markStale_succeeded hmark)
  · obtain rfl := Except.ok.inj hnext
    exact markStale_succeeded hmark

/-- A recovery of this command leaves none of its sources out of a success. -/
def RecoversWhole (db : Database) (commandId : UUID) : Prop :=
  ∀ row ∈ db.commands.find? commandId, AllReady db row → Represented db row

theorem recoversWhole_congr {commandId : UUID} (h : RecoversWhole db commandId)
    (hcommand : next.commands.find? commandId = db.commands.find? commandId)
    (hruns : ∀ r, r.commandId = commandId → (r ∈ next.runs ↔ r ∈ db.runs)) :
    RecoversWhole next commandId := by
  intro row hrow hready
  rw [hcommand] at hrow
  obtain rfl : row.state.id = commandId := (Table.find?_eq_some.mp hrow).2
  have hmem (r : RunState) : r ∈ next.runsOf row.state.id row.state.attempt ↔
      r ∈ db.runsOf row.state.id row.state.attempt := by
    rw [mem_runsOf, mem_runsOf]
    exact and_congr_left fun hown => hruns r hown.1
  obtain ⟨hrunning, hne, hall⟩ := hready
  obtain ⟨r, hr⟩ := List.exists_mem_of_ne_nil _ hne
  have hwhole := h row hrow
    ⟨hrunning, List.ne_nil_of_mem ((hmem r).mp hr), fun q hq => hall q ((hmem q).mpr hq)⟩
  intro sourceId hsource
  rcases hwhole sourceId hsource with ⟨q, hq, heq⟩ | hlast
  · exact .inl ⟨q, (hmem q).mpr hq, heq⟩
  · exact .inr ((lastSucceeded_congr hruns sourceId).mpr hlast)

theorem reconcileRow_others {commandId other : UUID} {now contextNow : Instant}
    (h : reconcileRow svc db commandId now contextNow = .ok next) (hne : other ≠ commandId) :
    next.commands.find? other = db.commands.find? other ∧
      ∀ r, r.commandId = other → (r ∈ next.runs ↔ r ∈ db.runs) := by
  obtain ⟨row, hrow, rfl | ⟨context, plan, command, hrecovered⟩ | ⟨_, state, hstate, rfl⟩⟩ :=
    reconcileRow_cases h
  · exact ⟨rfl, fun _ _ => Iff.rfl⟩
  · obtain ⟨results, hplan⟩ := finalizes_of_recovery hrecovered.planned
    obtain ⟨hid, _, _, _, hset⟩ :=
      command_persisted hrecovered.locked hplan hrecovered.persisted
    have hrewrites := rewrites_persisted hrecovered.locked hplan hrecovered.persisted
    have hkept (r : RunState) (hr : r ∈ db.runs) (hcommand : r.commandId = other) :
        settledRun plan.runs r = r := by
      rcases settledRun_cases hrecovered.locked hplan hr with ⟨hmine, _⟩ | ⟨_, hsame⟩
      · exact absurd (hcommand.symm.trans hmine) hne
      · exact hsame
    refine ⟨by rw [hset, if_neg (by rw [hid]; exact hne)], fun r hr =>
      ⟨fun hmem => ?_, fun hmem => ?_⟩⟩
    · obtain ⟨q, hq, rfl⟩ := (mem_rewrites hrewrites).mp hmem
      rw [hkept q hq ((hrewrites.claim q hq).2.1.symm.trans hr)]
      exact hq
    · exact (mem_rewrites hrewrites).mpr ⟨r, hmem, hkept r hmem hr⟩
  · have hid : state.id = row.state.id :=
      (change_identity (releaseCommand_change (.markStale false) hstate)).1
    have hkey := (Table.find?_eq_some.mp hrow).2
    refine ⟨find_setCommand_ne ?_, fun _ _ => Iff.rfl⟩
    rw [hid, hkey]
    exact hne

theorem accounted_reconcileRow {commandId : UUID} {now contextNow : Instant}
    (hdb : StoreInvariant db) (hacc : Accounted db) (hwhole : RecoversWhole db commandId)
    (h : reconcileRow svc db commandId now contextNow = .ok next) : Accounted next := by
  obtain ⟨row, hrow, rfl | ⟨context, plan, command, hrecovered⟩ | ⟨_, state, hstate, rfl⟩⟩ :=
    reconcileRow_cases h
  · exact hacc
  · obtain ⟨results, hplan⟩ := finalizes_of_recovery hrecovered.planned
    have hlocked := hrecovered.locked
    have hkey := (Table.find?_eq_some.mp hlocked.located).2
    refine accounted_persisted hdb hacc hlocked hplan hrecovered.persisted fun hall => ?_
    obtain ⟨hruns, hready⟩ := recovers_ready hrecovered.planned hall
    have hmem {r : RunState} : (∃ f ∈ context.runs, f.run = r) ↔
        r ∈ db.runsOf row.state.id row.state.attempt := by
      rw [mem_runsOf, locked_mem hlocked, hkey, hlocked.command]
    have hrunning := hplan.running
    rw [hlocked.command] at hrunning
    obtain ⟨f, hf⟩ := List.exists_mem_of_ne_nil _ hruns
    refine hwhole row hlocked.located
      ⟨hrunning, List.ne_nil_of_mem (hmem.mp ⟨f, hf, rfl⟩), fun r hr => ?_⟩
    obtain ⟨g, hg, rfl⟩ := hmem.mpr hr
    exact hready g hg
  · have hkey := (Table.find?_eq_some.mp hrow).2
    exact accounted_setCommand hacc (by rw [hkey]; exact hrow)
      (change_identity (releaseCommand_change (.markStale false) hstate))
      (releaseCommand_succeeded hstate)

theorem accounted_reconcileRows {now : Instant} {clock : ℕ → Instant} {k : ℕ}
    {commandIds : List UUID} (hdb : StoreInvariant db) (hacc : Accounted db)
    (hdistinct : commandIds.Nodup) (hwhole : ∀ id ∈ commandIds, RecoversWhole db id)
    (h : reconcileRows svc now clock k db commandIds = .ok next) : Accounted next := by
  induction commandIds generalizing k db with
  | nil =>
    obtain rfl := Except.ok.inj h
    exact hacc
  | cons commandId rest ih =>
    obtain ⟨mid, hmid, h⟩ := bind_eq_ok.mp h
    obtain ⟨hnotin, hdistinct⟩ := List.nodup_cons.mp hdistinct
    refine ih (moves_invariant (fun _ _ => storeInvariant_move) hdb (reconcileRow_moves hmid))
      (accounted_reconcileRow hdb hacc (hwhole commandId (by simp)) hmid) hdistinct
      (fun id hid => ?_) h
    obtain ⟨hcommand, hruns⟩ := reconcileRow_others hmid (fun heq => hnotin (heq ▸ hid))
    exact recoversWhole_congr (hwhole id (by simp [hid])) hcommand hruns

end Passes

section Runs
variable {svc : Service}

/-- Where the status of a command is the outcome of all its sources: commands have sources, a
    claim with the stored hash presents them, and a success leaves none of them out. -/
def KeepsAccount (svc : Service) (db : Database) (tx : Transaction) : Prop :=
  match tx.operation with
  | .materialize row => row.state.sourceIds ≠ []
  | .claim commandId _ sourceIds => ∀ row ∈ db.commands.find? commandId,
      row.sourceSetHash = collectionSourceSetHash svc.nfc sourceIds →
      sourceIds ⊆ row.state.sourceIds
  | .complete commandId request =>
      (∀ o ∈ request.sourceOutcomes, o.terminalStatus = .succeeded) →
      ∀ row ∈ db.commands.find? commandId, Represented db row
  | .recoverDue scopeVersion =>
      ∀ row ∈ reconcilableRows db scopeVersion, AllReady db row → Represented db row
  | _ => True

theorem accounted_complete {db : Database} {commandId : UUID} {request : CompletionRequest}
    {now : Instant} {completed : Database × CompletionOutcome} (hdb : StoreInvariant db)
    (hacc : Accounted db)
    (hwhole : (∀ o ∈ request.sourceOutcomes, o.terminalStatus = .succeeded) →
      ∀ row ∈ db.commands.find? commandId, Represented db row)
    (h : executeCompletion svc db commandId request now = .ok completed) :
    Accounted completed.1 := by
  obtain ⟨_, _, h⟩ := bind_eq_ok.mp h
  obtain ⟨_, h⟩ := require_bind.mp h
  split at h
  · obtain ⟨_, h⟩ := require_bind.mp h
    obtain ⟨_, _, h⟩ := bind_eq_ok.mp h
    obtain rfl := Except.ok.inj h
    exact hacc
  · obtain ⟨row, context, plan, command, hcompleted⟩ := finalizeCommand_completed h
    obtain ⟨base, hpersisted, completions, hnext⟩ := hcompleted.persisted
    obtain ⟨results, hplan⟩ := finalizes_of_completion hcompleted.planned
    have hbase : Accounted base :=
      accounted_persisted hdb hacc hcompleted.locked hplan hpersisted fun hall =>
        hwhole (reports_succeeded hcompleted.planned hall) row hcompleted.locked.located
    rw [hnext]
    exact accounted_of_tables hbase rfl rfl

theorem accounted_step {db next : Database} {tx : Transaction} (hdb : StoreInvariant db)
    (hacc : Accounted db) (hkeeps : KeepsAccount svc db tx)
    (h : ControlPlane.step svc db tx = .ok next) : Accounted next := by
  obtain ⟨operation, clock, ids⟩ := tx
  cases operation with
  | materialize row => exact accounted_materialize hdb hacc hkeeps h
  | govern change =>
    cases change with
    | setSource row =>
      obtain rfl := Except.ok.inj h
      exact accounted_of_tables hacc rfl rfl
    | addAuthorization row | addBudgetRecord row =>
      obtain ⟨_, _, h⟩ := bind_eq_ok.mp h
      obtain rfl := Except.ok.inj h
      exact accounted_of_tables hacc rfl rfl
  | reserve commandId reservation =>
    obtain ⟨row, hrow, h⟩ := bind_eq_ok.mp h
    obtain ⟨state, hstate, h⟩ := bind_eq_ok.mp h
    obtain rfl := Except.ok.inj h
    have hfind := lockedCommand_eq_ok.mp hrow
    obtain ⟨_, _, hopen, _, rfl⟩ := reserveDispatch_eq_ok.mp hstate
    refine accounted_setCommand hacc ?_ ⟨rfl, rfl, rfl, rfl⟩ (iff_of_false (by simp) ?_)
    · rw [(Table.find?_eq_some.mp hfind).2]
      exact hfind
    · intro hs
      simp [hs] at hopen
  | confirm commandId confirmation =>
    obtain ⟨row, hrow, h⟩ := bind_eq_ok.mp h
    obtain ⟨state, hstate, h⟩ := bind_eq_ok.mp h
    obtain rfl := Except.ok.inj h
    have hfind := lockedCommand_eq_ok.mp hrow
    obtain ⟨hreserved, rfl⟩ := confirmDispatch_eq_ok hstate
    refine accounted_setCommand hacc ?_ ⟨rfl, rfl, rfl, rfl⟩
      (iff_of_false (by simp) (by simp [hreserved]))
    rw [(Table.find?_eq_some.mp hfind).2]
    exact hfind
  | claim commandId credentials sourceIds =>
    obtain ⟨claimed, hclaimed, h⟩ := bind_eq_ok.mp h
    obtain rfl := Except.ok.inj h
    exact accounted_claim hacc hkeeps hclaimed
  | heartbeat commandId credentials =>
    obtain ⟨row, hrow, h⟩ := bind_eq_ok.mp h
    obtain ⟨state, hstate, h⟩ := bind_eq_ok.mp h
    obtain ⟨_, h⟩ := require_bind.mp h
    obtain rfl := Except.ok.inj h
    have hfind := lockedCommand_eq_ok.mp hrow
    obtain ⟨_, rfl⟩ := heartbeatCommand_eq_ok hstate
    refine accounted_setCommand (accounted_beatRuns hacc _ _ _) ?_ ⟨rfl, rfl, rfl, rfl⟩ Iff.rfl
    rw [(Table.find?_eq_some.mp hfind).2]
    exact hfind
  | commitPage runId request =>
    obtain ⟨committed, hcommitted, h⟩ := bind_eq_ok.mp h
    obtain rfl := Except.ok.inj h
    rcases executePageCommit_cases hcommitted with hsame | ⟨row, checkpoint, plan, hw⟩
    · rw [hsame]
      exact hacc
    · obtain ⟨_, _, _, _, _, hframe⟩ := hw.frame
      exact accounted_rewrites hacc (rewrites_pagedRun hw) (status_pagedRun hw) (by rw [hframe])
  | attachSkip operation =>
    obtain ⟨attached, hattached, h⟩ := bind_eq_ok.mp h
    obtain rfl := Except.ok.inj h
    exact accounted_attachSkip hacc hattached
  | complete commandId request =>
    obtain ⟨completed, hcompleted, h⟩ := bind_eq_ok.mp h
    obtain rfl := Except.ok.inj h
    exact accounted_complete hdb hacc hkeeps hcompleted
  | recoverDue scopeVersion =>
    obtain ⟨recovered, hrecovered, h⟩ := bind_eq_ok.mp h
    obtain rfl := Except.ok.inj h
    obtain ⟨reconciled, hreconciled, hrecovered⟩ := bind_eq_ok.mp hrecovered
    obtain rfl := Except.ok.inj hrecovered
    refine accounted_reconcileRows hdb hacc (reconcilableRows_distinct db scopeVersion)
      (fun id hid row hrow => ?_) hreconciled
    obtain ⟨other, hother, rfl⟩ := List.mem_map.mp hid
    rw [Table.find?_of_mem (mem_reconcilableRows.mp hother).1] at hrow
    obtain rfl := Option.some.inj hrow
    exact hkeeps other hother

theorem accounted_bare {db : Database} (h : Bare db) : Accounted db := by
  constructor <;> simp only [Table.mem_def, h.commands, h.runs] <;> simp

/-- A command is marked as succeeded exactly when the last run of each of its sources
    succeeded, in every run of transactions that keeps account. -/
theorem succeeded_iff_sources {start : Database} (hbare : Bare start) {txs : List Transaction}
    (hkeeps : Meets (ControlPlane.step svc) (KeepsAccount svc) start txs) :
    let db := run (ControlPlane.step svc) start txs
    ∀ row ∈ db.commands, row.state.status = .succeeded ↔
      ∀ sourceId ∈ row.state.sourceIds, LastSucceeded db row.state.id sourceId := by
  have hrun := run_invariant_of (I := fun db => StoreInvariant db ∧ Accounted db)
    (fun db tx next hdb hkeep hstep =>
      ⟨storeInvariant_step hdb.1 hstep, accounted_step hdb.1 hdb.2 hkeep hstep⟩)
    ⟨storeInvariant_bare hbare, accounted_bare hbare⟩ hkeeps
  exact hrun.2.status

end Runs

section Sample

theorem secondAttempt_valid : 1 ≤ 2 ∧ 2 ≤ maxCommandAttempts := by decide

/-- The report of a run that committed no page. -/
def failedOutcome (runId : UUID) (genesis : Digest) (status : RunStatus)
    (failure : FailureDetail) : CompletionSourceOutcome where
  runId := runId
  terminalStatus := status
  lastPageCommitId := none
  finalCursor := none
  finalPageOrdinal := none
  committedPageCount := 0
  committedPageHashChain := genesis
  skipDecisionId := none
  failure := some failure

/-- The report of a run whose only page exhausted its source. -/
def succeededOutcome (runId pageCommitId : UUID) (chainHash : Digest) :
    CompletionSourceOutcome where
  runId := runId
  terminalStatus := .succeeded
  lastPageCommitId := some pageCommitId
  finalCursor := some "c1"
  finalPageOrdinal := some 0
  committedPageCount := 1
  committedPageHashChain := chainHash
  skipDecisionId := none
  failure := none

def openedStory (sourceIds : List UUID) : List Transaction :=
  [⟨.materialize (storyCommand sourceIds), fun _ => 10, storyIds 0⟩,
    ⟨.reserve 2 ⟨sampleToken, sampleToken⟩, fun _ => 20, storyIds 1⟩]

def claimOf (sourceIds : List UUID) (attempt : ℕ) (now : Instant) : Transaction :=
  ⟨.claim 2 ⟨attempt, sampleToken, sampleToken⟩ sourceIds, fun _ => now, storyIds attempt⟩

def firstReport (outcomes : List CompletionSourceOutcome) (h : outcomes ≠ []) : Transaction :=
  ⟨.complete 2 (storyReport 1 firstAttempt_valid outcomes h), fun _ => 50, storyIds 1⟩

/-- The first attempt is reported, and the second one reserved. -/
def reservedStory (sourceIds : List UUID) (outcomes : List CompletionSourceOutcome)
    (h : outcomes ≠ []) : List Transaction :=
  openedStory sourceIds ++ [claimOf sourceIds 1 20, firstReport outcomes h,
    ⟨.reserve 2 ⟨sampleToken, sampleToken⟩, fun _ => seconds 5000, storyIds 2⟩]

/-- The second attempt, in which a run stores its only page. -/
def pagedStory (sourceIds : List UUID) (outcomes : List CompletionSourceOutcome)
    (h : outcomes ≠ []) (runId : UUID) : List Transaction :=
  reservedStory sourceIds outcomes h ++ [claimOf sourceIds 2 (seconds 5000),
    ⟨.commitPage runId (storyPage 2 secondAttempt_valid), fun _ => seconds 5001, storyIds 2⟩]

def secondReport (runId : UUID) (chainHash : Digest) : Transaction :=
  ⟨.complete 2 (storyReport 2 secondAttempt_valid [succeededOutcome runId 4200 chainHash]
    (by simp)), fun _ => seconds 5002, storyIds 2⟩

def retriedOutcomes : List CompletionSourceOutcome :=
  [failedOutcome 1103 0x75fc33132244450f37d4433689ff58746aded88b5feb464773fd3870080a0bac
    .failedRetryable networkFailure]

theorem retriedOutcomes_nonempty : retriedOutcomes ≠ [] := by simp [retriedOutcomes]

def retriedPages : List Transaction :=
  pagedStory [3] retriedOutcomes retriedOutcomes_nonempty 1203

def retriedStory : List Transaction :=
  retriedPages ++
    [secondReport 1203 0xa14035a3762b1a29adb511ca975c99510def592dc23d3a27eb31b6d384f380ed]

theorem retriedStory_states :
    let after := run (ControlPlane.step storyService) storyStart
    (∀ row ∈ (after (openedStory [3])).commands.find? 2, [3] ⊆ row.state.sourceIds) ∧
    (∀ row ∈ (after (reservedStory [3] retriedOutcomes retriedOutcomes_nonempty)).commands.find? 2,
      [3] ⊆ row.state.sourceIds) ∧
    (∀ row ∈ (after retriedPages).commands.find? 2, Represented (after retriedPages) row) ∧
    (after retriedStory).commands.rows.map (fun row => (row.state.status, row.state.attempt)) =
      [(.succeeded, 2)] := by
  decide +kernel

/-- What a story must meet is met by each of its parts, where the part begins. -/
theorem retriedStory_keeps :
    Meets (ControlPlane.step storyService) (KeepsAccount storyService) storyStart
      retriedStory := by
  obtain ⟨hfirst, hsecond, hwhole, _⟩ := retriedStory_states
  have hretried : ¬∀ o ∈ retriedOutcomes, o.terminalStatus = .succeeded := by
    simp [retriedOutcomes, failedOutcome]
  have hclaim {db : Database} {attempt : ℕ} {now : Instant}
      (h : ∀ row ∈ db.commands.find? 2, [3] ⊆ row.state.sourceIds) :
      KeepsAccount storyService db (claimOf [3] attempt now) := fun row hrow _ => h row hrow
  have hreport (db : Database) :
      KeepsAccount storyService db (firstReport retriedOutcomes retriedOutcomes_nonempty) :=
    fun hall => absurd hall hretried
  rw [retriedStory, meets_append, retriedPages, pagedStory, meets_append, reservedStory,
    meets_append]
  refine ⟨⟨⟨?_, hclaim hfirst, hreport _, trivial, trivial⟩, hclaim hsecond, trivial, trivial⟩,
    fun _ => hwhole, trivial⟩
  exact ⟨by simp [KeepsAccount, storyCommand], trivial, trivial⟩

/-- A source that failed and was retried: its last run decides. -/
theorem succeeded_iff_sources_sample :
    let db := run (ControlPlane.step storyService) storyStart retriedStory
    db.commands.rows.map (fun row => (row.state.status, row.state.attempt)) =
        [(.succeeded, 2)] ∧
    ∀ row ∈ db.commands, row.state.status = .succeeded ↔
      ∀ sourceId ∈ row.state.sourceIds, LastSucceeded db row.state.id sourceId :=
  ⟨retriedStory_states.2.2.2, succeeded_iff_sources storyStart_bare retriedStory_keeps⟩

/-- Source 3 fails for good where source 4 may be retried. -/
def droppedOutcomes : List CompletionSourceOutcome :=
  [failedOutcome 1103 0x75fc33132244450f37d4433689ff58746aded88b5feb464773fd3870080a0bac
      .failedTerminal contractFailure,
    failedOutcome 1104 0x4874f8b99f0f7c934c29f39d7541c2df4f45327391e4f670630afc4fed87623a
      .failedRetryable networkFailure]

theorem droppedOutcomes_nonempty : droppedOutcomes ≠ [] := by simp [droppedOutcomes]

def droppedStory : List Transaction :=
  pagedStory [3, 4] droppedOutcomes droppedOutcomes_nonempty 1204 ++
    [secondReport 1204 0x9766f88ec99aabd555b49973b0a2efb58283332430f491eed218ed1b5a4eddbe]

/-- The retry of source 4 succeeds, and so does the command. -/
theorem source_dropped :
    let db := run (ControlPlane.step storyService) storyStart droppedStory
    ∃ row ∈ db.commands.rows, row.state.status = .succeeded ∧ 3 ∈ row.state.sourceIds ∧
      ¬LastSucceeded db row.state.id 3 ∧
      ∃ r ∈ db.runs.rows, r.sourceId = 3 ∧ r.status = .failedTerminal := by
  decide +kernel

end Sample

end PredictionMarketMonitor.AttemptOutcomes
