import PredictionMarketMonitor.PlanEffects

set_option autoImplicit false

/-!
# What every reachable database keeps

Runs belong to attempts of their commands and run exactly while their attempt
does, no two of them share an attempt of a source or run in one scope, and a
running run carries the coupled facts of its page stream. One lemma for each
kind of transaction, and from these the invariant of every run of transactions.
-/
namespace PredictionMarketMonitor.ReachableStores

open CanonicalJson CivilTime ClaimPolicy CollectionBase CollectionModels CommandLifecycle
open CommandStore Completion CompletionStore ControlPlane ControlPlaneTables Dispatch FallibleSteps
open KeyedTable PageCommit PageStore PageStreams PlanEffects Sha256 StaleRecovery ThreadedLog

section Invariant

/-- A run of a command, and what the status of the command says about it. -/
structure Owned (command : CommandState) (r : RunState) : Prop where
  scope : r.scopeVersion = command.scopeVersion
  attempt : r.attempt ≤ command.attempt
  status : r.status = .running ∨ RunStatus.Finished r.status
  live : r.status = .running ↔ command.status = .running ∧ r.attempt = command.attempt
  settled : r.attempt = command.attempt →
    command.status = .running ∨ command.status = .failedRetryable ∨ Final command.status

def pagesOf (db : Database) (runId : UUID) : List PageCommitRecord :=
  db.commits.rows.filter (fun c => c.runId = runId)

structure StoreInvariant (db : Database) : Prop where
  commands : ∀ row ∈ db.commands,
    LifecycleInvariant row.state ∧ row.state.status ≠ .staleAbandoned
  owned : ∀ r ∈ db.runs, ∃ row, db.commands.find? r.commandId = some row ∧ Owned row.state r
  single : ∀ r ∈ db.runs, ∀ q ∈ db.runs, r.commandId = q.commandId → r.sourceId = q.sourceId →
    r.attempt = q.attempt → r = q
  exclusive : ∀ r ∈ db.runs, ∀ q ∈ db.runs, r.status = .running → q.status = .running →
    r.sourceId = q.sourceId → r.scopeVersion = q.scopeVersion → r = q
  stream : ∀ r ∈ db.runs, r.status = .running → ∃ c,
    db.checkpoints.find? (r.sourceId, r.scopeVersion) = some c ∧
      StreamInvariant ⟨r, c, pagesOf db r.id⟩
  commits : ∀ c ∈ db.commits, ∃ r ∈ db.runs, r.id = c.runId
  manifests : ∀ m ∈ db.manifests, ∃ r ∈ db.runs, r.id = m.draft.runId ∧ r.status = .succeeded

theorem storeInvariant_of_tables {db next : Database} (h : StoreInvariant db)
    (hcommands : next.commands = db.commands) (hruns : next.runs = db.runs)
    (hcheckpoints : next.checkpoints = db.checkpoints) (hcommits : next.commits = db.commits)
    (hmanifests : next.manifests = db.manifests) : StoreInvariant next := by
  have hpages (id : UUID) : pagesOf next id = pagesOf db id := by rw [pagesOf, hcommits]; rfl
  constructor
  · rw [hcommands]; exact h.commands
  · rw [hcommands, hruns]; exact h.owned
  · rw [hruns]; exact h.single
  · rw [hruns]; exact h.exclusive
  · rw [hruns, hcheckpoints]
    intro r hr hrunning
    rw [hpages]
    exact h.stream r hr hrunning
  · rw [hcommits, hruns]; exact h.commits
  · rw [hmanifests, hruns]; exact h.manifests

theorem finished_ne_running {s : RunStatus} (h : RunStatus.Finished s) : s ≠ .running := h.2.1

theorem final_ne_running {s : CommandStatus} (h : Final s) : s ≠ .running := by
  rcases h with rfl | rfl | rfl | rfl <;> simp

end Invariant

section Commands

theorem owned_earlier {s t : CommandState} {r : RunState} (h : Owned s r)
    (hdead : r.status ≠ .running) (hscope : t.scopeVersion = s.scopeVersion)
    (hlt : r.attempt < t.attempt) : Owned t r where
  scope := h.scope.trans hscope.symm
  attempt := Nat.le_of_lt hlt
  status := h.status
  live := ⟨fun hrunning => absurd hrunning hdead, fun hnow => absurd hnow.2 (by omega)⟩
  settled := fun heq => absurd heq (by omega)

/-- The runs of a command survive its own changes. A command that stops running
    without finalizing its runs must have none in its attempt. -/
theorem owned_change {s t : CommandState} {op : CommandLifecycle.Operation} {r : RunState}
    (h : Owned s r) (hchange : Change s op t) (hstale : t.status ≠ .staleAbandoned)
    (hquiet : s.status = .running → t.status ≠ .running → r.attempt ≠ s.attempt) : Owned t r := by
  have hid := change_identity hchange
  by_cases hattempt : r.attempt = s.attempt
  · rcases h.settled hattempt with hrunning | hretry | hfinal
    · have hlive := h.live.mpr ⟨hrunning, hattempt⟩
      have htrunning : t.status = .running := by
        by_contra hne
        exact hquiet hrunning hne hattempt
      have hsame : t.attempt = s.attempt := by
        rcases attempt_change hchange with hsame | ⟨_, hretry, _⟩
        · exact hsame
        · rw [hrunning] at hretry
          cases hretry
      exact ⟨h.scope.trans hid.2.1.symm, by omega, h.status,
        ⟨fun _ => ⟨htrunning, by omega⟩, fun _ => hlive⟩, fun _ => .inl htrunning⟩
    · have hdead : r.status ≠ .running := by
        intro hrunning
        have := (h.live.mp hrunning).1
        rw [hretry] at this
        cases this
      rcases change_origin hchange with rfl | ⟨q, now, hreserve⟩ | hs
      · exact h
      · obtain ⟨_, _, _, _, rfl⟩ := reserveDispatch_eq_ok.mp hreserve
        refine owned_earlier h hdead rfl ?_
        simp only [hretry, if_true]
        omega
      · simp [Reconcilable, hretry] at hs
    · rw [final_change hfinal hchange]
      exact h
  · have hdead : r.status ≠ .running := fun hrunning => hattempt (h.live.mp hrunning).2
    refine owned_earlier h hdead hid.2.1 ?_
    have hle := h.attempt
    rcases attempt_change hchange with hsame | ⟨hsucc, _⟩ <;> omega

theorem find_of_setCommand {db : Database} {row : CommandRow} {state : CommandState}
    (hrow : db.commands.find? state.id = some row) (hid : SameIdentity row.state state)
    {other : CommandRow} (hother : other ∈ (db.setCommand state).commands) :
    (other.state.id = state.id ∧ other = { row with state := state }) ∨
      (other.state.id ≠ state.id ∧ other ∈ db.commands) := by
  have hfind := Table.find?_of_mem hother
  rw [find_setCommand hrow hid] at hfind
  by_cases heq : other.state.id = state.id
  · rw [if_pos heq] at hfind
    exact .inl ⟨heq, (Option.some.inj hfind).symm⟩
  · rw [if_neg heq] at hfind
    exact .inr ⟨heq, (Table.find?_eq_some.mp hfind).1⟩

theorem commands_setCommand {db : Database} {row : CommandRow} {state : CommandState}
    {op : CommandLifecycle.Operation}
    (hdb : ∀ row ∈ db.commands, LifecycleInvariant row.state ∧ row.state.status ≠ .staleAbandoned)
    (hrow : db.commands.find? row.state.id = some row) (hchange : Change row.state op state)
    (hstale : state.status ≠ .staleAbandoned) : ∀ other ∈ (db.setCommand state).commands,
      LifecycleInvariant other.state ∧ other.state.status ≠ .staleAbandoned := by
  have hid := change_identity hchange
  intro other hother
  rcases find_of_setCommand (by rw [hid.1]; exact hrow) hid hother with ⟨_, rfl⟩ | ⟨_, hold⟩
  · exact ⟨lifecycle_change (hdb row (Table.find?_eq_some.mp hrow).1).1 hchange, hstale⟩
  · exact hdb other hold

theorem storeInvariant_setCommand {db : Database} {row : CommandRow} {state : CommandState}
    {op : CommandLifecycle.Operation} (h : StoreInvariant db)
    (hrow : db.commands.find? row.state.id = some row) (hchange : Change row.state op state)
    (hstale : state.status ≠ .staleAbandoned)
    (hquiet : row.state.status = .running → state.status ≠ .running →
      ∀ r ∈ db.runs, r.commandId = row.state.id → r.attempt ≠ row.state.attempt) :
    StoreInvariant (db.setCommand state) where
  commands := commands_setCommand h.commands hrow hchange hstale
  owned := by
    have hid := change_identity hchange
    intro r hr
    obtain ⟨owner, howner, howned⟩ := h.owned r hr
    rw [find_setCommand (by rw [hid.1]; exact hrow) hid]
    by_cases heq : r.commandId = state.id
    · have hcommand : r.commandId = row.state.id := heq.trans hid.1
      rw [hcommand, hrow] at howner
      obtain rfl := Option.some.inj howner
      rw [if_pos heq]
      exact ⟨_, rfl, owned_change howned hchange hstale fun hs ht => hquiet hs ht r hr hcommand⟩
    · rw [if_neg heq]
      exact ⟨owner, howner, howned⟩
  single := h.single
  exclusive := h.exclusive
  stream := h.stream
  commits := h.commits
  manifests := h.manifests

end Commands

section Rewrites

/-- Every run row is rewritten in place, under its claim, and none is revived. -/
structure Rewrites (db next : Database) (f : RunState → RunState) : Prop where
  rows : next.runs.rows = db.runs.rows.map f
  claim : ∀ r ∈ db.runs, SameClaim r (f r)
  running : ∀ r ∈ db.runs, (f r).status = .running → r.status = .running

theorem mem_rewrites {db next : Database} {f : RunState → RunState} (h : Rewrites db next f)
    {q : RunState} : q ∈ next.runs ↔ ∃ r ∈ db.runs, f r = q := by
  rw [Table.mem_def, h.rows]
  exact List.mem_map

theorem single_rewrites {db next : Database} {f : RunState → RunState} (hdb : StoreInvariant db)
    (h : Rewrites db next f) : ∀ r ∈ next.runs, ∀ q ∈ next.runs, r.commandId = q.commandId →
      r.sourceId = q.sourceId → r.attempt = q.attempt → r = q := by
  intro r hr q hq hcommand hsource hattempt
  obtain ⟨a, ha, rfl⟩ := (mem_rewrites h).mp hr
  obtain ⟨b, hb, rfl⟩ := (mem_rewrites h).mp hq
  obtain ⟨_, hac, has, _, haa⟩ := h.claim a ha
  obtain ⟨_, hbc, hbs, _, hba⟩ := h.claim b hb
  rw [hdb.single a ha b hb (hac.symm.trans (hcommand.trans hbc))
    (has.symm.trans (hsource.trans hbs)) (haa.symm.trans (hattempt.trans hba))]

theorem exclusive_rewrites {db next : Database} {f : RunState → RunState} (hdb : StoreInvariant db)
    (h : Rewrites db next f) : ∀ r ∈ next.runs, ∀ q ∈ next.runs, r.status = .running →
      q.status = .running → r.sourceId = q.sourceId → r.scopeVersion = q.scopeVersion → r = q := by
  intro r hr q hq hrr hqr hsource hscope
  obtain ⟨a, ha, rfl⟩ := (mem_rewrites h).mp hr
  obtain ⟨b, hb, rfl⟩ := (mem_rewrites h).mp hq
  obtain ⟨_, _, has, hav, _⟩ := h.claim a ha
  obtain ⟨_, _, hbs, hbv, _⟩ := h.claim b hb
  rw [hdb.exclusive a ha b hb (h.running a ha hrr) (h.running b hb hqr)
    (has.symm.trans (hsource.trans hbs)) (hav.symm.trans (hscope.trans hbv))]

theorem exists_rewrites {db next : Database} {f : RunState → RunState} (h : Rewrites db next f)
    {id : UUID} (hid : ∃ r ∈ db.runs, r.id = id) : ∃ r ∈ next.runs, r.id = id := by
  obtain ⟨r, hr, rfl⟩ := hid
  exact ⟨f r, (mem_rewrites h).mpr ⟨r, hr, rfl⟩, (h.claim r hr).1⟩

theorem succeeded_rewrites {db next : Database} {f : RunState → RunState} (h : Rewrites db next f)
    (hkept : ∀ r ∈ db.runs, r.status = .succeeded → (f r).status = .succeeded) {id : UUID}
    (hid : ∃ r ∈ db.runs, r.id = id ∧ r.status = .succeeded) :
    ∃ r ∈ next.runs, r.id = id ∧ r.status = .succeeded := by
  obtain ⟨r, hr, rfl, hsucceeded⟩ := hid
  exact ⟨f r, (mem_rewrites h).mpr ⟨r, hr, rfl⟩, (h.claim r hr).1, hkept r hr hsucceeded⟩

theorem owned_of_columns {s : CommandState} {r t : RunState} (h : Owned s r) (hclaim : SameClaim r t)
    (hstatus : t.status = r.status) : Owned s t := by
  obtain ⟨_, _, _, hscope, hattempt⟩ := hclaim
  exact ⟨hscope.trans h.scope, hattempt ▸ h.attempt, hstatus ▸ h.status,
    by rw [hstatus, hattempt]; exact h.live, by rw [hattempt]; exact h.settled⟩

theorem owned_rewrites {db next : Database} {f : RunState → RunState} (hdb : StoreInvariant db)
    (h : Rewrites db next f) (hcommands : next.commands = db.commands)
    (hstatus : ∀ r ∈ db.runs, (f r).status = r.status) :
    ∀ q ∈ next.runs, ∃ row, next.commands.find? q.commandId = some row ∧ Owned row.state q := by
  intro q hq
  obtain ⟨r, hr, rfl⟩ := (mem_rewrites h).mp hq
  obtain ⟨row, hrow, howned⟩ := hdb.owned r hr
  rw [hcommands, (h.claim r hr).2.1]
  exact ⟨row, hrow, owned_of_columns howned (h.claim r hr) (hstatus r hr)⟩

theorem storeInvariant_rewriteRuns {db next : Database} {f : RunState → RunState}
    (hdb : StoreInvariant db) (hrows : next.runs.rows = db.runs.rows.map f)
    (hclaim : ∀ r ∈ db.runs, SameClaim r (f r)) (hstatus : ∀ r ∈ db.runs, (f r).status = r.status)
    (hstream : ∀ r ∈ db.runs, ∀ c cs, StreamInvariant ⟨r, c, cs⟩ → StreamInvariant ⟨f r, c, cs⟩)
    (hcommands : next.commands = db.commands) (hcheckpoints : next.checkpoints = db.checkpoints)
    (hcommits : next.commits = db.commits) (hmanifests : next.manifests = db.manifests) :
    StoreInvariant next := by
  have hrewrites : Rewrites db next f :=
    ⟨hrows, hclaim, fun r hr hrunning => (hstatus r hr).symm.trans hrunning⟩
  have hpages (id : UUID) : pagesOf next id = pagesOf db id := by rw [pagesOf, hcommits]; rfl
  constructor
  · rw [hcommands]
    exact hdb.commands
  · exact owned_rewrites hdb hrewrites hcommands hstatus
  · exact single_rewrites hdb hrewrites
  · exact exclusive_rewrites hdb hrewrites
  · intro q hq hrunning
    obtain ⟨r, hr, rfl⟩ := (mem_rewrites hrewrites).mp hq
    obtain ⟨hid, _, hsource, hscope, _⟩ := hclaim r hr
    obtain ⟨c, hc, hfacts⟩ := hdb.stream r hr (hrewrites.running r hr hrunning)
    rw [hcheckpoints, hpages, hsource, hscope, hid]
    exact ⟨c, hc, hstream r hr _ _ hfacts⟩
  · rw [hcommits]
    exact fun c hc => exists_rewrites hrewrites (hdb.commits c hc)
  · rw [hmanifests]
    exact fun m hm => succeeded_rewrites hrewrites (fun r hr => (hstatus r hr).trans)
      (hdb.manifests m hm)

theorem streamInvariant_marks {r : RunState} {c : CheckpointState} {cs : List PageCommitRecord}
    (h : StreamInvariant ⟨r, c, cs⟩) (heartbeatAt : Instant) (authorizationId budgetId : Option UUID) :
    StreamInvariant ⟨{ r with
      heartbeatAt := heartbeatAt
      skipAuthorizationDecisionId := authorizationId
      skipBudgetDecisionId := budgetId }, c, cs⟩ := by
  obtain ⟨h1, h2, h3, h4, h5, h6, h7, h8, h9, h10, h11, h12, h13, h14, h15, h16, h17⟩ := h
  exact ⟨h1, h2, h3, h4, h5, h6, h7, h8, h9, h10, h11, h12, h13, h14, h15, h16,
    ⟨h17.earlier, h17.pair, h17.commitId, h17.ordinal, h17.cursor, h17.reason, h17.chainHash,
      h17.ready⟩⟩

theorem storeInvariant_beatRuns {db : Database} (h : StoreInvariant db) (commandId : UUID)
    (attempt : ℕ) (heartbeatAt : Instant) :
    StoreInvariant (beatRuns db commandId attempt heartbeatAt) := by
  refine storeInvariant_rewriteRuns h
    (f := fun r => if r.commandId = commandId ∧ r.attempt = attempt then
      { r with heartbeatAt := heartbeatAt } else r) rfl ?_ ?_ ?_ rfl rfl rfl rfl
  · intro r _
    split
    · exact ⟨rfl, rfl, rfl, rfl, rfl⟩
    · exact sameClaim_refl r
  · intro r _
    split <;> rfl
  · intro r _ c cs hstream
    split
    · exact streamInvariant_marks hstream heartbeatAt _ _
    · exact hstream

def markSkip (httpStatus : SkipHttpStatus) (decisionId : UUID) (r : RunState) : RunState :=
  match httpStatus with
  | .unauthorized | .forbidden => { r with skipAuthorizationDecisionId := some decisionId }
  | .tooManyRequests => { r with skipBudgetDecisionId := some decisionId }

theorem attachProof_runs {svc : Service} {db next : Database} {source : SourceRow}
    {current : AuthorizationRow} {run : RunState} {op : SkipDecisionOperation}
    {now statementNow : Instant} {decisionId : UUID}
    (h : attachProof svc db source current run op now statementNow decisionId = .ok next) :
    next.runs.rows = db.runs.rows.map (fun r =>
      if r.id = run.id then markSkip op.httpStatus decisionId r else r) := by
  unfold attachProof at h
  split at h
  case h_3 hstatus =>
    obtain ⟨_, _, h⟩ := bind_eq_ok.mp h
    obtain ⟨_, _, h⟩ := bind_eq_ok.mp h
    obtain ⟨_, h⟩ := require_bind.mp h
    obtain ⟨_, _, h⟩ := bind_eq_ok.mp h
    obtain ⟨_, h⟩ := require_bind.mp h
    obtain ⟨_, _, h⟩ := bind_eq_ok.mp h
    obtain ⟨_, h⟩ := require_bind.mp h
    obtain rfl := Except.ok.inj h
    rw [hstatus]
    rfl
  all_goals
    rename_i hstatus
    obtain ⟨_, _, h⟩ := bind_eq_ok.mp h
    obtain ⟨_, h⟩ := require_bind.mp h
    obtain rfl := Except.ok.inj h
    rw [hstatus]
    rfl

/-- A proof that was written: the empty live run it belongs to, and its marks. -/
structure ProofWritten (svc : Service) (db : Database) (op : SkipDecisionOperation)
    (clock : ℕ → Instant) (ids : FreshIds) (next proved : Database) (run : RunState)
    (current : SourceRow × AuthorizationRow) : Prop where
  located : db.runs.find? op.runId = some run
  owner : run.commandId = op.commandId ∧ run.attempt = op.attempt
  live : run.status = .running
  empty : SkipEmpty run
  pages : db.commitsOf run.id = []
  authorized : currentAuthorization db run (clock 0) = .ok current
  attaches : attachProof svc db current.1 current.2 run op (clock 0) (clock 1) ids.skipDecision =
    .ok proved
  written : ∃ skipObservations, next = { proved with skipObservations := skipObservations }

theorem attachSkipDecision_cases {svc : Service} {db : Database} {op : SkipDecisionOperation}
    {clock : ℕ → Instant} {ids : FreshIds} {attached : Database × ℕ × Bytes}
    (h : attachSkipDecision svc db op clock ids = .ok attached) :
    attached.1 = db ∨ ∃ proved run current,
      ProofWritten svc db op clock ids attached.1 proved run current := by
  obtain ⟨run, hrun, h⟩ := bind_eq_ok.mp h
  obtain ⟨hrun, howner⟩ := Option.filter_eq_some_iff.mp (present_eq_ok.mp hrun)
  obtain ⟨command, _, h⟩ := bind_eq_ok.mp h
  obtain ⟨_, h⟩ := require_bind.mp h
  split at h
  · obtain ⟨_, h⟩ := require_bind.mp h
    obtain ⟨_, h⟩ := require_bind.mp h
    obtain rfl := Except.ok.inj h
    exact .inl rfl
  · obtain ⟨hlive, h⟩ := require_bind.mp h
    obtain ⟨hempty, h⟩ := require_bind.mp h
    obtain ⟨hpages, h⟩ := require_bind.mp h
    obtain ⟨current, hcurrent, h⟩ := bind_eq_ok.mp h
    obtain ⟨_, _, h⟩ := bind_eq_ok.mp h
    obtain ⟨_, h⟩ := require_bind.mp h
    obtain ⟨proved, hproved, h⟩ := bind_eq_ok.mp h
    obtain ⟨skipObservations, _, h⟩ := bind_eq_ok.mp h
    obtain rfl := Except.ok.inj h
    exact .inr ⟨proved, run, current, hrun, of_decide_eq_true howner, hlive.2.1, hempty, hpages,
      hcurrent, hproved, skipObservations, rfl⟩

theorem storeInvariant_attachSkip {svc : Service} {db : Database} {op : SkipDecisionOperation}
    {clock : ℕ → Instant} {ids : FreshIds} {attached : Database × ℕ × Bytes}
    (hdb : StoreInvariant db) (h : attachSkipDecision svc db op clock ids = .ok attached) :
    StoreInvariant attached.1 := by
  rcases attachSkipDecision_cases h with hsame | ⟨proved, run, current, hwritten⟩
  · rw [hsame]
    exact hdb
  · obtain ⟨skipObservations, hnext⟩ := hwritten.written
    obtain ⟨_, _, _, _, hframe⟩ := attachProof_frame hwritten.attaches
    have hrows := attachProof_runs hwritten.attaches
    have hmark (r : RunState) : SameClaim r (markSkip op.httpStatus ids.skipDecision r) ∧
        (markSkip op.httpStatus ids.skipDecision r).status = r.status ∧
        ∀ c cs, StreamInvariant ⟨r, c, cs⟩ →
          StreamInvariant ⟨markSkip op.httpStatus ids.skipDecision r, c, cs⟩ := by
      unfold markSkip
      split
      all_goals exact ⟨⟨rfl, rfl, rfl, rfl, rfl⟩, rfl, fun c cs hs => streamInvariant_marks hs _ _ _⟩
    refine storeInvariant_rewriteRuns hdb (f := fun r =>
      if r.id = run.id then markSkip op.httpStatus ids.skipDecision r else r) ?_ ?_ ?_ ?_ ?_ ?_ ?_ ?_
    · rw [hnext]
      exact hrows
    · intro r _
      split
      · exact (hmark r).1
      · exact sameClaim_refl r
    · intro r _
      split
      · exact (hmark r).2.1
      · rfl
    · intro r _ c cs hstream
      split
      · exact (hmark r).2.2 c cs hstream
      · exact hstream
    all_goals rw [hnext, hframe]

end Rewrites

section Pages

/-- The run of a locked stream: the stored row with its recomputed counters. -/
def countedRun (db : Database) (row : RunState) : RunState :=
  { row with
    acceptedCount := ((db.commitsOf row.id).map (·.acceptedCount)).sum
    duplicateCount := ((db.commitsOf row.id).map (·.duplicateCount)).sum
    rejectedCount := ((db.commitsOf row.id).map (·.rejectedCount)).sum }

theorem lockedStream_eq_ok {db : Database} {runId : UUID} {stream : PageStream} :
    lockedStream db runId = .ok stream ↔ ∃ row checkpoint,
      db.runs.find? runId = some row ∧
      db.checkpoints.find? (row.sourceId, row.scopeVersion) = some checkpoint ∧
      stream = ⟨countedRun db row, checkpoint, db.commitsOf row.id⟩ := by
  rw [lockedStream, bind_eq_ok]
  simp only [bind_eq_ok, present_eq_ok, pure, Except.pure, Except.ok.injEq, eq_comm (b := stream),
    exists_and_left]
  rfl

/-- A page that was written: what admitted it, and the tables it leaves. -/
structure PageWritten (db : Database) (runId : UUID) (now : Instant) (next : Database)
    (row : RunState) (checkpoint : CheckpointState) (plan : PageCommitPlan) : Prop where
  located : db.runs.find? runId = some row
  locked : db.checkpoints.find? (row.sourceId, row.scopeVersion) = some checkpoint
  running : row.status = .running
  authorized : ∃ authorization, pageAuthorization db row.sourceId = .ok authorization ∧
    ActiveFor authorization row.sourceId row.scopeVersion now
  capped : ∃ pageCap ∈ row.reviewedPageCap, 0 < pageCap
  appended : Appended ⟨countedRun db row, checkpoint, db.commitsOf row.id⟩
    ⟨plan.updatedRun, plan.updatedCheckpoint, db.commitsOf row.id ++ [plan.commit]⟩ plan.commit now
  commits : db.commits.find? plan.commit.id = none ∧
    next.commits.rows = db.commits.rows ++ [plan.commit]
  runs : next.runs = (db.setRun plan.updatedRun).runs
  checkpoints : next.checkpoints = (db.setCheckpoint plan.updatedCheckpoint).checkpoints
  frame : ∃ commits observedItems posts checkpoints runs, next = { db with
    commits := commits
    observedItems := observedItems
    posts := posts
    checkpoints := checkpoints
    runs := runs }

theorem executePageCommit_cases {svc : Service} {db : Database} {runId : UUID}
    {request : PageCommitRequest} {clock : ℕ → Instant} {newId : ℕ → UUID}
    {committed : Database × PageCommitOutcome}
    (h : executePageCommit svc db runId request clock newId = .ok committed) :
    committed.1 = db ∨ ∃ row checkpoint plan,
      PageWritten db runId (clock 0) committed.1 row checkpoint plan := by
  have hframe := executePageCommit_frame h
  obtain ⟨stream, hstream, h⟩ := bind_eq_ok.mp h
  obtain ⟨row, checkpoint, hrow, hcheckpoint, rfl⟩ := lockedStream_eq_ok.mp hstream
  obtain ⟨call, hcall, h⟩ := bind_eq_ok.mp h
  obtain ⟨command, _, hcall⟩ := bind_eq_ok.mp hcall
  obtain ⟨pageCap, hpageCap, hcall⟩ := bind_eq_ok.mp hcall
  obtain ⟨postCap, _, hcall⟩ := bind_eq_ok.mp hcall
  obtain ⟨hcaps, hcall⟩ := require_bind.mp hcall
  obtain ⟨authorization, hauthorization, hcall⟩ := bind_eq_ok.mp hcall
  obtain rfl := Except.ok.inj hcall
  obtain ⟨plan, hplan, h⟩ := bind_eq_ok.mp h
  dsimp only at h
  split at h
  · obtain rfl := Except.ok.inj h
    exact .inl rfl
  · rename_i hpersist
    obtain ⟨_, h⟩ := require_bind.mp h
    obtain ⟨commits, hcommits, h⟩ := bind_eq_ok.mp h
    obtain rfl := Except.ok.inj h
    obtain ⟨served, normalized, requestHash, _, hnormalized, _, _, hcases⟩ :=
      preparePageCommit_cases hplan
    rcases hcases with ⟨replay, _, hreplay⟩ | ⟨_, hnew⟩
    · obtain ⟨_, _, response, _, rfl⟩ := replayPage_eq_ok.mp hreplay
      exact absurd rfl hpersist
    · have happended := appended_of_newPage hnormalized hnew
      have hstore : PageStream.store ⟨countedRun db row, checkpoint, db.commitsOf row.id⟩ plan =
          ⟨plan.updatedRun, plan.updatedCheckpoint, db.commitsOf row.id ++ [plan.commit]⟩ := by
        rw [PageStream.store, if_pos (by simpa using hpersist)]
      rw [hstore] at happended
      obtain ⟨hfree, hrows⟩ := Table.insert?_eq_some.mp (present_eq_ok.mp hcommits)
      exact .inr ⟨row, checkpoint, plan, hrow, hcheckpoint, hnew.admitted.runRunning,
        ⟨authorization, hauthorization, hnew.admitted.active⟩,
        ⟨pageCap, present_eq_ok.mp hpageCap, hcaps.1.1⟩, happended, ⟨hfree, hrows⟩, rfl, rfl,
        hframe⟩

theorem streamInvariant_stored {row : RunState} {stored checkpoint : CheckpointState}
    {cs : List PageCommitRecord} {c : PageCommitRecord} {now : Instant} {a d e : ℕ}
    (h : StreamInvariant ⟨advanceRun
      { row with acceptedCount := a, duplicateCount := d, rejectedCount := e } c now,
      checkpoint, cs⟩) :
    StreamInvariant ⟨applyRunState row (advanceRun
      { row with acceptedCount := a, duplicateCount := d, rejectedCount := e } c now),
      applyCheckpointState stored checkpoint, cs⟩ := by
  rw [advanceRun_eq] at h ⊢
  obtain ⟨h1, h2, h3, h4, h5, h6, h7, h8, h9, h10, h11, h12, h13, h14, h15, h16, h17⟩ := h
  exact ⟨h1, h2, h3, h4, h5, h6, h7, h8, h9, h10, h11, h12, h13, h14, h15, h16,
    ⟨h17.earlier, h17.pair, h17.commitId, h17.ordinal, h17.cursor, h17.reason, h17.chainHash,
      h17.ready⟩⟩

theorem streamInvariant_counted {db : Database} {row : RunState} {c : CheckpointState}
    {cs : List PageCommitRecord} (h : StreamInvariant ⟨row, c, cs⟩) :
    StreamInvariant ⟨countedRun db row, c, cs⟩ := by
  obtain ⟨h1, h2, h3, h4, h5, h6, h7, h8, h9, h10, h11, h12, h13, h14, h15, h16, h17⟩ := h
  exact ⟨h1, h2, h3, h4, h5, h6, h7, h8, h9, h10, h11, h12, h13, h14, h15, h16,
    ⟨h17.earlier, h17.pair, h17.commitId, h17.ordinal, h17.cursor, h17.reason, h17.chainHash,
      h17.ready⟩⟩

theorem commitsOf_running {db : Database} (hdb : StoreInvariant db) {r : RunState}
    (hr : r ∈ db.runs) (hrunning : r.status = .running) :
    db.commitsOf r.id = pagesOf db r.id := by
  obtain ⟨c, _, hstream⟩ := hdb.stream r hr hrunning
  exact byOrdinal_of_counter hstream.ordinals

section Written
variable {db next : Database} {runId : UUID} {now : Instant} {row : RunState}
  {checkpoint : CheckpointState} {plan : PageCommitPlan}

def pagedRun (plan : PageCommitPlan) (r : RunState) : RunState :=
  if r.id = plan.updatedRun.id then applyRunState r plan.updatedRun else r

theorem updatedRun_id (hw : PageWritten db runId now next row checkpoint plan) :
    plan.updatedRun.id = row.id := by
  have hrun := hw.appended.run
  simp only at hrun
  rw [hrun, advanceRun_eq]
  rfl

theorem updatedCheckpoint_key (hw : PageWritten db runId now next row checkpoint plan) :
    CheckpointState.key plan.updatedCheckpoint = (row.sourceId, row.scopeVersion) := by
  obtain ⟨publishedAt, sourcePostId, hcheckpoint⟩ := hw.appended.checkpoint
  simp only at hcheckpoint
  rw [hcheckpoint]
  exact (Table.find?_eq_some.mp hw.locked).2

theorem pagedRun_self (hw : PageWritten db runId now next row checkpoint plan) :
    pagedRun plan row = applyRunState row plan.updatedRun :=
  if_pos (updatedRun_id hw).symm

theorem pagedRun_other (hw : PageWritten db runId now next row checkpoint plan) {r : RunState}
    (hne : r.id ≠ row.id) : pagedRun plan r = r :=
  if_neg fun heq => hne (heq.trans (updatedRun_id hw))

theorem status_pagedRun (hw : PageWritten db runId now next row checkpoint plan) :
    ∀ r ∈ db.runs, (pagedRun plan r).status = r.status := by
  intro r hr
  by_cases heq : r.id = row.id
  · obtain rfl := Table.eq_of_key hr (Table.find?_eq_some.mp hw.located).1 heq
    have hrun := hw.appended.run
    simp only at hrun
    rw [pagedRun_self hw, hrun, advanceRun_eq]
    rfl
  · rw [pagedRun_other hw heq]

theorem rewrites_pagedRun (hw : PageWritten db runId now next row checkpoint plan) :
    Rewrites db next (pagedRun plan) := by
  refine ⟨by rw [hw.runs]; rfl, fun r _ => ?_, fun r hr hrunning => ?_⟩
  · rw [pagedRun]
    split
    · exact ⟨rfl, rfl, rfl, rfl, rfl⟩
    · exact sameClaim_refl r
  · rw [← status_pagedRun hw r hr]
    exact hrunning

theorem pagesOf_written (hw : PageWritten db runId now next row checkpoint plan) (id : UUID) :
    pagesOf next id = if id = row.id then pagesOf db id ++ [plan.commit] else pagesOf db id := by
  have hrunId : plan.commit.runId = row.id := hw.appended.owner.1
  rw [pagesOf, hw.commits.2, List.filter_append, List.filter_singleton, hrunId]
  by_cases heq : id = row.id
  · rw [if_pos heq, heq]
    simp [pagesOf]
  · rw [if_neg heq]
    simp [pagesOf, Ne.symm heq]

theorem stream_paged (hdb : StoreInvariant db)
    (hw : PageWritten db runId now next row checkpoint plan) : ∃ c,
      next.checkpoints.find? (row.sourceId, row.scopeVersion) = some c ∧
        StreamInvariant ⟨pagedRun plan row, c, pagesOf db row.id ++ [plan.commit]⟩ := by
  obtain ⟨hmem, _⟩ := Table.find?_eq_some.mp hw.located
  obtain ⟨c, hc, hstream⟩ := hdb.stream row hmem hw.running
  obtain rfl := Option.some.inj (hc.symm.trans hw.locked)
  have hordered := commitsOf_running hdb hmem hw.running
  have hrun := hw.appended.run
  simp only at hrun
  have hnext := streamInvariant_appended (s := ⟨countedRun db row, c, db.commitsOf row.id⟩)
    (by rw [hordered]; exact streamInvariant_counted hstream) hw.appended
  refine ⟨applyCheckpointState c plan.updatedCheckpoint, ?_, ?_⟩
  · have hupdate := @Table.find?_update_self _ _ CheckpointState.key _ db.checkpoints
      (CheckpointState.key plan.updatedCheckpoint)
      (fun row => applyCheckpointState row plan.updatedCheckpoint)
      (fun row => applyCheckpointState_key row _)
    rw [hw.checkpoints, ← updatedCheckpoint_key hw]
    refine hupdate.trans ?_
    rw [updatedCheckpoint_key hw, hw.locked]
    rfl
  · rw [pagedRun_self hw, ← hordered]
    rw [hrun] at hnext ⊢
    exact streamInvariant_stored hnext

theorem stream_unpaged (hdb : StoreInvariant db)
    (hw : PageWritten db runId now next row checkpoint plan) {r : RunState} (hr : r ∈ db.runs)
    (hrunning : r.status = .running) (hne : r.id ≠ row.id) :
    next.checkpoints.find? (r.sourceId, r.scopeVersion) =
      db.checkpoints.find? (r.sourceId, r.scopeVersion) := by
  obtain ⟨hmem, _⟩ := Table.find?_eq_some.mp hw.located
  have hkey : (r.sourceId, r.scopeVersion) ≠ CheckpointState.key plan.updatedCheckpoint := by
    rw [updatedCheckpoint_key hw]
    intro hsame
    obtain ⟨hs, hv⟩ := Prod.mk.inj hsame
    exact hne (congrArg (·.id) (hdb.exclusive r hr row hmem hrunning hw.running hs hv))
  rw [hw.checkpoints]
  exact @Table.find?_update_ne _ _ CheckpointState.key _ db.checkpoints _ _ _
    (fun row => applyCheckpointState_key row _) hkey

theorem storeInvariant_written (hdb : StoreInvariant db)
    (hw : PageWritten db runId now next row checkpoint plan) : StoreInvariant next := by
  obtain ⟨hmem, _⟩ := Table.find?_eq_some.mp hw.located
  obtain ⟨_, _, _, _, _, hframe⟩ := hw.frame
  have hcommands : next.commands = db.commands := by rw [hframe]
  have hmanifests : next.manifests = db.manifests := by rw [hframe]
  have hrewrites := rewrites_pagedRun hw
  have hstatus := status_pagedRun hw
  constructor
  · rw [hcommands]
    exact hdb.commands
  · exact owned_rewrites hdb hrewrites hcommands hstatus
  · exact single_rewrites hdb hrewrites
  · exact exclusive_rewrites hdb hrewrites
  · intro q hq hrunning
    obtain ⟨r, hr, rfl⟩ := (mem_rewrites hrewrites).mp hq
    have hlive := hrewrites.running r hr hrunning
    obtain ⟨hid, _, hsource, hscope, _⟩ := hrewrites.claim r hr
    rw [hsource, hscope, hid, pagesOf_written hw]
    by_cases heq : r.id = row.id
    · obtain rfl := Table.eq_of_key hr hmem heq
      rw [if_pos rfl]
      exact stream_paged hdb hw
    · rw [if_neg heq, stream_unpaged hdb hw hr hlive heq, pagedRun_other hw heq]
      exact hdb.stream r hr hlive
  · intro c hc
    rw [Table.mem_def, hw.commits.2, List.mem_append, List.mem_singleton] at hc
    refine exists_rewrites hrewrites ?_
    rcases hc with hold | rfl
    · exact hdb.commits c hold
    · exact ⟨row, hmem, hw.appended.owner.1.symm⟩
  · rw [hmanifests]
    exact fun m hm => succeeded_rewrites hrewrites (fun r hr => (hstatus r hr).trans)
      (hdb.manifests m hm)

end Written

theorem storeInvariant_commitPage {svc : Service} {db : Database} {runId : UUID}
    {request : PageCommitRequest} {clock : ℕ → Instant} {newId : ℕ → UUID}
    {committed : Database × PageCommitOutcome} (hdb : StoreInvariant db)
    (h : executePageCommit svc db runId request clock newId = .ok committed) :
    StoreInvariant committed.1 := by
  rcases executePageCommit_cases h with hsame | ⟨row, checkpoint, plan, hw⟩
  · rw [hsame]
    exact hdb
  · exact storeInvariant_written hdb hw

end Pages

section Claims
variable {nfc : Text → Text}

/-- A run that a claim has created, and the tables it leaves. -/
structure RunCreated (nfc : Text → Text) (db : Database) (state : CommandState) (lease : Digest)
    (now : Instant) (policies : List ClaimSourcePolicy) (ids : FreshIds) (sourceId : UUID)
    (next : Database) (run : RunState) : Prop where
  checkpoint : ∃ checkpoint started,
    next.checkpoints.find? (sourceId, state.scopeVersion) = some checkpoint ∧
    startRun nfc (runStart state lease now ids sourceId) checkpoint = .ok started ∧
    ∃ policy, policies.find? (fun p => p.sourceId = sourceId) = some policy ∧
      run = bindPolicy started policy
  columns : run.commandId = state.id ∧ run.sourceId = sourceId ∧
    run.scopeVersion = state.scopeVersion ∧ run.attempt = state.attempt ∧ run.status = .running
  kept : ∀ key c, db.checkpoints.find? key = some c → next.checkpoints.find? key = some c
  single : ∀ r ∈ db.runs, ¬(r.commandId = run.commandId ∧ r.sourceId = run.sourceId ∧
    r.attempt = run.attempt)
  exclusive : ∀ r ∈ db.runs, r.status = .created ∨ r.status = .running →
    ¬(r.sourceId = run.sourceId ∧ r.scopeVersion = run.scopeVersion)
  inserted : db.runs.insert? run = some next.runs
  frame : ∃ runs checkpoints, next = { db with runs := runs, checkpoints := checkpoints }

theorem claimCheckpoint_find {db : Database} {sourceId : UUID} {scope : String} {ids : FreshIds}
    {located : Database × CheckpointState}
    (h : claimCheckpoint db sourceId scope ids = .ok located) :
    located.1.checkpoints.find? (sourceId, scope) = some located.2 ∧
      ∀ key c, db.checkpoints.find? key = some c → located.1.checkpoints.find? key = some c := by
  unfold claimCheckpoint at h
  split at h
  · rename_i checkpoint hfind
    obtain rfl := Except.ok.inj h
    exact ⟨hfind, fun _ _ hc => hc⟩
  · rename_i hfind
    obtain ⟨checkpoints, hinsert, h⟩ := bind_eq_ok.mp h
    obtain rfl := Except.ok.inj h
    have hfound := Table.find?_insert (present_eq_ok.mp hinsert)
    refine ⟨by rw [hfound]; exact if_pos rfl, fun key c hc => ?_⟩
    rw [hfound]
    split
    · rename_i heq
      rw [← heq] at hc
      cases hfind.symm.trans hc
    · exact hc

theorem claimRun_created {db : Database} {state : CommandState} {lease : Digest}
    {now statementNow : Instant} {policies : List ClaimSourcePolicy} {ids : FreshIds}
    {sourceId : UUID} {claimed : Database × RunState}
    (h : claimRun nfc db state lease now statementNow policies ids sourceId = .ok claimed) :
    RunCreated nfc db state lease now policies ids sourceId claimed.1 claimed.2 := by
  have hframe := claimRun_frame h
  obtain ⟨located, hlocated, h⟩ := bind_eq_ok.mp h
  obtain ⟨policy, hpolicy, h⟩ := bind_eq_ok.mp h
  obtain ⟨started, hstarted, h⟩ := bind_eq_ok.mp h
  obtain ⟨next, hnext, h⟩ := bind_eq_ok.mp h
  obtain rfl := Except.ok.inj h
  obtain ⟨hfind, hkept⟩ := claimCheckpoint_find hlocated
  obtain ⟨_, hlocated⟩ := claimCheckpoint_frame hlocated
  obtain ⟨⟨_, hsingle, hexclusive⟩, runs, hinsert, rfl⟩ := addRun_eq_ok.mp hnext
  have hruns : located.1.runs = db.runs := by rw [hlocated]
  rw [hruns] at hsingle hexclusive hinsert
  refine {
    checkpoint := ⟨located.2, started, hfind, hstarted, policy, present_eq_ok.mp hpolicy, rfl⟩
    columns := ?_
    kept := hkept
    single := hsingle
    exclusive := hexclusive
    inserted := hinsert
    frame := hframe }
  obtain ⟨_, _, _, _, _, rfl⟩ := startRun_eq_ok hstarted
  exact ⟨rfl, rfl, rfl, rfl, rfl⟩

theorem storeInvariant_created {db next : Database} {state : CommandState} {lease : Digest}
    {now : Instant} {policies : List ClaimSourcePolicy} {ids : FreshIds} {sourceId : UUID}
    {run : RunState} {row : CommandRow} (hdb : StoreInvariant db)
    (hrow : db.commands.find? state.id = some row) (hrunning : row.state.status = .running)
    (hattempt : row.state.attempt = state.attempt)
    (hscope : row.state.scopeVersion = state.scopeVersion)
    (h : RunCreated nfc db state lease now policies ids sourceId next run) :
    StoreInvariant next := by
  obtain ⟨_, _, hframe⟩ := h.frame
  have hcommands : next.commands = db.commands := by rw [hframe]
  have hcommits : next.commits = db.commits := by rw [hframe]
  have hmanifests : next.manifests = db.manifests := by rw [hframe]
  have hpages (id : UUID) : pagesOf next id = pagesOf db id := by rw [pagesOf, hcommits]; rfl
  have hmem (q : RunState) : q ∈ next.runs ↔ q ∈ db.runs ∨ q = run := Table.mem_insert h.inserted
  have hfresh : db.runs.find? run.id = none := (Table.insert?_eq_some.mp h.inserted).1
  obtain ⟨hcommand, hsource, hrunScope, hrunAttempt, hlive⟩ := h.columns
  constructor
  · rw [hcommands]
    exact hdb.commands
  · intro q hq
    rw [hcommands]
    rcases (hmem q).mp hq with hold | rfl
    · exact hdb.owned q hold
    · refine ⟨row, by rw [hcommand]; exact hrow, ?_⟩
      exact ⟨hrunScope.trans hscope.symm, by omega, .inl hlive,
        ⟨fun _ => ⟨hrunning, by omega⟩, fun _ => hlive⟩, fun _ => .inl hrunning⟩
  · intro r hr q hq hc hs ha
    rcases (hmem r).mp hr with hr | rfl <;> rcases (hmem q).mp hq with hq | rfl
    · exact hdb.single r hr q hq hc hs ha
    · exact absurd ⟨hc, hs, ha⟩ (h.single r hr)
    · exact absurd ⟨hc.symm, hs.symm, ha.symm⟩ (h.single q hq)
    · rfl
  · intro r hr q hq hrr hqr hs hv
    rcases (hmem r).mp hr with hr | rfl <;> rcases (hmem q).mp hq with hq | rfl
    · exact hdb.exclusive r hr q hq hrr hqr hs hv
    · exact absurd ⟨hs, hv⟩ (h.exclusive r hr (.inr hrr))
    · exact absurd ⟨hs.symm, hv.symm⟩ (h.exclusive q hq (.inr hqr))
    · rfl
  · intro q hq hqr
    rw [hpages]
    rcases (hmem q).mp hq with hold | rfl
    · obtain ⟨c, hc, hstream⟩ := hdb.stream q hold hqr
      exact ⟨c, h.kept _ c hc, hstream⟩
    · obtain ⟨checkpoint, started, hfind, hstarted, policy, _, rfl⟩ := h.checkpoint
      have hnone : pagesOf db (bindPolicy started policy).id = [] := by
        rw [pagesOf, List.filter_eq_nil_iff]
        intro c hc heq
        obtain ⟨r, hr, hid⟩ := hdb.commits c hc
        exact Table.find?_eq_none.mp hfresh r hr (hid.trans (of_decide_eq_true heq))
      rw [hnone, hsource, hrunScope]
      exact ⟨checkpoint, hfind, streamInvariant_started policy hstarted⟩
  · rw [hcommits]
    intro c hc
    obtain ⟨r, hr, hid⟩ := hdb.commits c hc
    exact ⟨r, (hmem r).mpr (.inl hr), hid⟩
  · rw [hmanifests]
    intro m hm
    obtain ⟨r, hr, hfacts⟩ := hdb.manifests m hm
    exact ⟨r, (hmem r).mpr (.inl hr), hfacts⟩

theorem storeInvariant_claimEach {state : CommandState} {lease : Digest}
    {now statementNow : Instant} {policies : List ClaimSourcePolicy} {ids : FreshIds}
    {commands : Table (fun row : CommandRow => row.state.id)} {row : CommandRow}
    (hrow : commands.find? state.id = some row) (hrunning : row.state.status = .running)
    (hattempt : row.state.attempt = state.attempt)
    (hscope : row.state.scopeVersion = state.scopeVersion) {db : Database} {sourceIds : List UUID}
    {claimed : Database × List RunState} (hdb : StoreInvariant { db with commands := commands })
    (h : claimEach nfc state lease now statementNow policies ids db sourceIds = .ok claimed) :
    StoreInvariant { claimed.1 with commands := commands } := by
  induction sourceIds generalizing db claimed with
  | nil =>
    obtain rfl := Except.ok.inj h
    exact hdb
  | cons sourceId rest ih =>
    obtain ⟨first, hfirst, h⟩ := bind_eq_ok.mp h
    obtain ⟨others, hothers, h⟩ := bind_eq_ok.mp h
    obtain rfl := Except.ok.inj h
    have hcreated := claimRun_created hfirst
    obtain ⟨runs, checkpoints, hframe⟩ := hcreated.frame
    have hmoved : RunCreated nfc { db with commands := commands } state lease now policies ids
        sourceId { first.1 with commands := commands } first.2 :=
      ⟨hcreated.checkpoint, hcreated.columns, hcreated.kept, hcreated.single, hcreated.exclusive,
        hcreated.inserted, runs, checkpoints, by rw [hframe]⟩
    have hnext := storeInvariant_created hdb hrow hrunning hattempt hscope hmoved
    have hrest : StoreInvariant { others.1 with commands := commands } := ih hnext hothers
    exact hrest

/-- What an accepted claim did: it confirmed the runs it found, or created runs. -/
structure Claimed (svc : Service) (db : Database) (commandId : UUID)
    (credentials : ClaimCredentials) (sourceIds : List UUID) (clock : ℕ → Instant)
    (ids : FreshIds) (claimed : Database × ClaimResult) (decided : Database × List ClaimSourcePolicy)
    (row : CommandRow) : Prop where
  located : db.commands.find? commandId = some row
  policies : claimSourcePolicies svc db sourceIds row.state.scopeVersion (clock 0) ids = .ok decided
  sources : row.sourceSetHash = collectionSourceSetHash svc.nfc sourceIds
  command : claimCommand row.state credentials (clock 1) = .ok claimed.2.command
  runs : (db.runsOf commandId row.state.attempt ≠ [] ∧
      claimed.2.runs = bySource (db.runsOf commandId row.state.attempt) ∧
      claimed.1 = decided.1.setCommand claimed.2.command) ∨
    (db.runsOf commandId row.state.attempt = [] ∧ ∃ lease eligible created,
      row.state.leaseHash = some lease ∧
      eligibleRetrySources db commandId sourceIds = .ok eligible ∧
      claimEach svc.nfc row.state lease (clock 1) (clock 2) decided.2 ids decided.1 eligible =
        .ok (created, claimed.2.runs) ∧
      claimed.2.runs ≠ [] ∧ claimed.1 = created.setCommand claimed.2.command)

theorem bySource_eq_nil {runs : List RunState} : bySource runs = [] ↔ runs = [] := by
  rw [← List.length_eq_zero_iff, bySource, List.length_insertionSort, List.length_eq_zero_iff]

theorem eligibleRetrySources_congr {db next : Database} (h : next.runs = db.runs) (commandId : UUID)
    (sourceIds : List UUID) :
    eligibleRetrySources next commandId sourceIds = eligibleRetrySources db commandId sourceIds := by
  induction sourceIds with
  | nil => rfl
  | cons sourceId rest ih =>
    simp only [eligibleRetrySources, ih, latestStatus, h]

theorem claim_cases {svc : Service} {db : Database} {commandId : UUID}
    {credentials : ClaimCredentials} {sourceIds : List UUID} {clock : ℕ → Instant} {ids : FreshIds}
    {claimed : Database × ClaimResult}
    (h : claim svc db commandId credentials sourceIds clock ids = .ok claimed) :
    ∃ decided row, Claimed svc db commandId credentials sourceIds clock ids claimed decided row := by
  obtain ⟨first, hfirst, h⟩ := bind_eq_ok.mp h
  obtain ⟨decided, hdecided, h⟩ := bind_eq_ok.mp h
  obtain ⟨_, hframe⟩ := claimSourcePolicies_frame hdecided
  have hruns : decided.1.runs = db.runs := by rw [hframe]
  have hrunsOf (attempt : ℕ) : decided.1.runsOf commandId attempt = db.runsOf commandId attempt := by
    rw [Database.runsOf, hruns]
    rfl
  obtain ⟨row, hrow, h⟩ := bind_eq_ok.mp h
  have hfind := lockedCommand_eq_ok.mp hrow
  rw [hframe] at hfind
  obtain rfl := Option.some.inj ((lockedCommand_eq_ok.mp hfirst).symm.trans hfind)
  obtain ⟨hsources, h⟩ := require_bind.mp h
  obtain ⟨command, hcommand, h⟩ := bind_eq_ok.mp h
  dsimp only at h
  rw [hrunsOf] at h
  refine ⟨decided, first, ?_⟩
  split at h
  · rename_i hcurrent
    obtain rfl := Except.ok.inj h
    rw [ne_eq, bySource_eq_nil] at hcurrent
    exact ⟨hfind, hdecided, hsources, hcommand, .inl ⟨hcurrent, rfl, rfl⟩⟩
  · rename_i hcurrent
    rw [ne_eq, not_not, bySource_eq_nil] at hcurrent
    obtain ⟨lease, hlease, h⟩ := bind_eq_ok.mp h
    obtain ⟨eligible, heligible, h⟩ := bind_eq_ok.mp h
    obtain ⟨created, hcreated, h⟩ := bind_eq_ok.mp h
    obtain ⟨hnonempty, h⟩ := require_bind.mp h
    obtain rfl := Except.ok.inj h
    rw [eligibleRetrySources_congr hruns] at heligible
    exact ⟨hfind, hdecided, hsources, hcommand, .inr ⟨hcurrent, lease, eligible, created.1,
      present_eq_ok.mp hlease, heligible, hcreated, hnonempty, rfl⟩⟩

theorem storeInvariant_claim {svc : Service} {db : Database} {commandId : UUID}
    {credentials : ClaimCredentials} {sourceIds : List UUID} {clock : ℕ → Instant} {ids : FreshIds}
    {claimed : Database × ClaimResult} (hdb : StoreInvariant db)
    (h : claim svc db commandId credentials sourceIds clock ids = .ok claimed) :
    StoreInvariant claimed.1 := by
  obtain ⟨decided, row, hclaimed⟩ := claim_cases h
  obtain ⟨_, hframe⟩ := claimSourcePolicies_frame hclaimed.policies
  have hkey : row.state.id = commandId := (Table.find?_eq_some.mp hclaimed.located).2
  have hchange : Change row.state (.claim credentials) claimed.2.command := by
    have hstep : CommandLifecycle.step svc.nfc row.state ⟨.claim credentials, clock 1, []⟩ =
      .ok claimed.2.command := hclaimed.command
    exact step_change hstep
  have hid := change_identity hchange
  obtain ⟨_, hrunning, hattempt⟩ : ProofsMatch row.state credentials ∧
      claimed.2.command.status = .running ∧ claimed.2.command.attempt = row.state.attempt := by
    obtain ⟨hproofs, ⟨_, hnext⟩ | ⟨hs, hnext⟩⟩ := claimCommand_cases hclaimed.command
    · rw [hnext]
      exact ⟨hproofs, rfl, rfl⟩
    · rw [hnext]
      exact ⟨hproofs, hs, rfl⟩
  have hdecided : StoreInvariant decided.1 := by
    rw [hframe]
    exact storeInvariant_of_tables hdb rfl rfl rfl rfl rfl
  have hrow : decided.1.commands.find? row.state.id = some row := by
    rw [hframe, hkey]
    exact hclaimed.located
  have hset : StoreInvariant (decided.1.setCommand claimed.2.command) :=
    storeInvariant_setCommand hdecided hrow hchange (by simp [hrunning])
      fun _ hne => absurd hrunning hne
  rcases hclaimed.runs with ⟨_, _, hnext⟩ | ⟨_, lease, eligible, created, _, _, hcreated, _, hnext⟩
  · rw [hnext]
    exact hset
  · have hstored : decided.1.commands.find? claimed.2.command.id = some row := by
      rw [hid.1]
      exact hrow
    have hsetRow := find_setCommand hstored hid row.state.id
    rw [if_pos hid.1.symm] at hsetRow
    have hall := storeInvariant_claimEach hsetRow hrunning hattempt hid.2.1 hset hcreated
    have hcommands : created.commands = decided.1.commands := by
      obtain ⟨_, _, hcreatedFrame⟩ := claimEach_frame hcreated
      exact congrArg (·.commands) hcreatedFrame
    rw [hnext]
    refine storeInvariant_of_tables hall ?_ rfl rfl rfl rfl
    simp only [Database.setCommand, hcommands]

end Claims

section Finalizations
variable {svc : Service}

theorem owned_settled {s t : CommandState} {r q : RunState} (h : Owned s r) (hclaim : SameClaim r q)
    (hfinished : RunStatus.Finished q.status) (hscope : t.scopeVersion = s.scopeVersion)
    (hattempt : t.attempt = s.attempt) (hstatus : Final t.status ∨ t.status = .failedRetryable) :
    Owned t q := by
  obtain ⟨_, _, _, hqscope, hqattempt⟩ := hclaim
  have hle := h.attempt
  have hidle : t.status ≠ .running := by
    rcases hstatus with hfinal | hretry
    · exact final_ne_running hfinal
    · simp [hretry]
  exact ⟨hqscope.trans (h.scope.trans hscope.symm), by omega, .inr hfinished,
    ⟨fun hrunning => absurd hrunning (finished_ne_running hfinished),
      fun hnow => absurd hnow.1 hidle⟩,
    fun _ => .inr hstatus.symm⟩

section Persisting
variable {db next : Database} {commandId : UUID} {now : Instant} {allow : Bool}
  {context : CompletionContext} {row : CommandRow} {plan : CompletionPlan}
  {results : List (RunState × Option PublicationDraft)} {key : Bytes} {command : CommandState}

/-- A stored run is either locked and settled, or keeps its row. -/
theorem settledRun_cases (hlocked : Locked db commandId context.command.attempt now allow context row)
    (hplan : Finalizes svc.nfc context plan results) {r : RunState} (hr : r ∈ db.runs) :
    (r.commandId = commandId ∧ r.attempt = row.state.attempt ∧ r.status = .running ∧
      RunStatus.Finished (settledRun plan.runs r).status) ∨
    (¬(r.commandId = commandId ∧ r.attempt = row.state.attempt) ∧ settledRun plan.runs r = r) := by
  have hcontext := hlocked.command
  by_cases hmine : r.commandId = commandId ∧ r.attempt = row.state.attempt
  · obtain ⟨f, hf, rfl⟩ := (locked_mem hlocked).mpr ⟨hr, hmine.1, by rw [hcontext]; exact hmine.2⟩
    have hsettles := (settledRun_finalizes hplan hf).2
    exact .inl ⟨hmine.1, hmine.2, hsettles.owned.2.2, hsettles.finished⟩
  · refine .inr ⟨hmine, settledRun_outside hplan fun f hf heq => hmine ?_⟩
    obtain ⟨hfmem, hfcommand, hfattempt⟩ := (locked_mem hlocked).mp ⟨f, hf, rfl⟩
    rw [Table.eq_of_key hfmem hr heq] at hfcommand hfattempt
    exact ⟨hfcommand, by rw [hfattempt, hcontext]⟩

theorem rewrites_persisted
    (hlocked : Locked db commandId context.command.attempt now allow context row)
    (hplan : Finalizes svc.nfc context plan results)
    (hpersisted : Persisted db context plan key next command) :
    Rewrites db next (settledRun plan.runs) := by
  refine ⟨hpersisted.runs, fun r _ => settledRun_claim _ r, fun r hr hrunning => ?_⟩
  rcases settledRun_cases hlocked hplan hr with ⟨_, _, hlive, _⟩ | ⟨_, hsame⟩
  · exact hlive
  · rw [hsame] at hrunning
    exact hrunning

theorem command_persisted
    (hlocked : Locked db commandId context.command.attempt now allow context row)
    (hplan : Finalizes svc.nfc context plan results)
    (hpersisted : Persisted db context plan key next command) :
    command.id = commandId ∧ command.scopeVersion = row.state.scopeVersion ∧
      command.attempt = row.state.attempt ∧
      (Final command.status ∨ command.status = .failedRetryable) ∧
      ∀ id, next.commands.find? id =
        if id = command.id then some { row with state := command } else db.commands.find? id := by
  obtain ⟨_, hkey⟩ := Table.find?_eq_some.mp hlocked.located
  obtain ⟨hid, hstatus, hattempt⟩ := completedCommand_fields hpersisted.completed
  rw [hlocked.command] at hid hattempt
  have hfinal := finalizes_status hplan
  rw [← hstatus] at hfinal
  refine ⟨hid.1.trans hkey, hid.2.1, hattempt, hfinal, fun id => ?_⟩
  rw [hpersisted.commands]
  exact find_setCommand (by rw [hid.1, hkey]; exact hlocked.located) hid id

theorem owned_persisted (hdb : StoreInvariant db)
    (hlocked : Locked db commandId context.command.attempt now allow context row)
    (hplan : Finalizes svc.nfc context plan results)
    (hpersisted : Persisted db context plan key next command) :
    ∀ q ∈ next.runs, ∃ row, next.commands.find? q.commandId = some row ∧ Owned row.state q := by
  obtain ⟨hid, hscope, hattempt, hfinal, hset⟩ := command_persisted hlocked hplan hpersisted
  have hrewrites := rewrites_persisted hlocked hplan hpersisted
  intro q hq
  obtain ⟨r, hr, rfl⟩ := (mem_rewrites hrewrites).mp hq
  obtain ⟨owner, howner, howned⟩ := hdb.owned r hr
  have hclaim := hrewrites.claim r hr
  rw [hclaim.2.1, hset]
  by_cases heq : r.commandId = command.id
  · have hcommand : r.commandId = commandId := heq.trans hid
    rw [hcommand, hlocked.located] at howner
    obtain rfl := Option.some.inj howner
    rw [if_pos heq]
    refine ⟨_, rfl, ?_⟩
    rcases settledRun_cases hlocked hplan hr with ⟨_, hrattempt, _, hfinished⟩ | ⟨hother, hsame⟩
    · exact owned_settled howned hclaim hfinished hscope hattempt hfinal
    · have hne : r.attempt ≠ row.state.attempt := fun h => hother ⟨hcommand, h⟩
      have hle := howned.attempt
      rw [hsame]
      exact owned_earlier howned (fun hrunning => hne (howned.live.mp hrunning).2) hscope
        (by change r.attempt < command.attempt; omega)
  · rw [if_neg heq]
    refine ⟨owner, howner, ?_⟩
    rcases settledRun_cases hlocked hplan hr with ⟨hcommand, _⟩ | ⟨_, hsame⟩
    · exact absurd (hcommand.trans hid.symm) heq
    · rw [hsame]
      exact howned

theorem stream_persisted (hdb : StoreInvariant db)
    (hlocked : Locked db commandId context.command.attempt now allow context row)
    (hplan : Finalizes svc.nfc context plan results)
    (hpersisted : Persisted db context plan key next command)
    (hcommits : next.commits = db.commits) :
    ∀ q ∈ next.runs, q.status = .running → ∃ c,
      next.checkpoints.find? (q.sourceId, q.scopeVersion) = some c ∧
        StreamInvariant ⟨q, c, pagesOf next q.id⟩ := by
  have hpages (id : UUID) : pagesOf next id = pagesOf db id := by rw [pagesOf, hcommits]; rfl
  intro q hq hrunning
  obtain ⟨r, hr, rfl⟩ := (mem_rewrites (rewrites_persisted hlocked hplan hpersisted)).mp hq
  rcases settledRun_cases hlocked hplan hr with ⟨_, _, _, hfinished⟩ | ⟨_, hsame⟩
  · exact absurd hrunning (finished_ne_running hfinished)
  · rw [hsame] at hrunning ⊢
    obtain ⟨c, hc, hstream⟩ := hdb.stream r hr hrunning
    rw [hpersisted.checkpoints (locked_current hlocked), hc, hpages]
    obtain ⟨h1, h2, h3, h4, h5, h6, h7, h8, h9, h10, h11, h12, h13, h14, h15, h16, h17⟩ := hstream
    exact ⟨_, rfl, h1, h2, h3, h4, h5, h6, h7, h8, h9, h10, h11, h12, h13, h14, h15, h16, h17⟩

theorem published_persisted
    (hlocked : Locked db commandId context.command.attempt now allow context row)
    (hplan : Finalizes svc.nfc context plan results)
    (hpersisted : Persisted db context plan key next command) {draft : PublicationDraft}
    (hdraft : draft ∈ plan.publications) :
    ∃ r ∈ next.runs, r.id = draft.runId ∧ r.status = .succeeded := by
  have hrewrites := rewrites_persisted hlocked hplan hpersisted
  have hpair : (draft.runId, draft.sourceId) ∈
      (plan.runs.filter (fun s => s.status = .succeeded)).map (fun s => (s.id, s.sourceId)) := by
    rw [← finalizes_publications hplan]
    exact List.mem_map.mpr ⟨draft, hdraft, rfl⟩
  obtain ⟨s, hs, hsid⟩ := List.mem_map.mp hpair
  obtain ⟨hsmem, hsucceeded⟩ := List.mem_filter.mp hs
  have hids : s.id ∈ plan.runs.map (·.id) := List.mem_map_of_mem hsmem
  rw [finalizes_ids hplan] at hids
  obtain ⟨f, hf, hfid⟩ := List.mem_map.mp hids
  obtain ⟨hfmem, _⟩ := (locked_mem hlocked).mp ⟨f, mem_byRunId.mp hf, rfl⟩
  refine ⟨settledRun plan.runs f.run, (mem_rewrites hrewrites).mpr ⟨f.run, hfmem, rfl⟩, ?_, ?_⟩
  · rw [(hrewrites.claim f.run hfmem).1, hfid]
    exact congrArg Prod.fst hsid
  · rw [settledRun_of_mem (finalizes_distinct hplan) hsmem hfid.symm]
    exact of_decide_eq_true hsucceeded

theorem manifests_persisted (hdb : StoreInvariant db)
    (hlocked : Locked db commandId context.command.attempt now allow context row)
    (hplan : Finalizes svc.nfc context plan results)
    (hpersisted : Persisted db context plan key next command) :
    ∀ m ∈ next.manifests, ∃ r ∈ next.runs, r.id = m.draft.runId ∧ r.status = .succeeded := by
  intro m hm
  obtain ⟨added, hrows, hdrafts, _⟩ := hpersisted.manifests
  rw [Table.mem_def, hrows, List.mem_append] at hm
  rcases hm with hold | hnew
  · refine succeeded_rewrites (rewrites_persisted hlocked hplan hpersisted)
      (fun r hr hsucceeded => ?_) (hdb.manifests m hold)
    rcases settledRun_cases hlocked hplan hr with ⟨_, _, hlive, _⟩ | ⟨_, hsame⟩
    · rw [hlive] at hsucceeded
      cases hsucceeded
    · rw [hsame]
      exact hsucceeded
  · refine published_persisted hlocked hplan hpersisted ?_
    rw [← hdrafts]
    exact List.mem_map_of_mem hnew

theorem storeInvariant_persisted {op : CommandLifecycle.Operation} (hdb : StoreInvariant db)
    (hlocked : Locked db commandId context.command.attempt now allow context row)
    (hplan : Finalizes svc.nfc context plan results)
    (hpersisted : Persisted db context plan key next command)
    (hchange : Change context.command op command) : StoreInvariant next := by
  obtain ⟨_, _, _, _, hframe⟩ := hpersisted.frame
  have hcommits : next.commits = db.commits := by rw [hframe]; rfl
  obtain ⟨_, hkey⟩ := Table.find?_eq_some.mp hlocked.located
  obtain ⟨_, _, _, hfinal, _⟩ := command_persisted hlocked hplan hpersisted
  have hrewrites := rewrites_persisted hlocked hplan hpersisted
  rw [hlocked.command] at hchange
  constructor
  · rw [hpersisted.commands]
    exact commands_setCommand hdb.commands (by rw [hkey]; exact hlocked.located) hchange (by
      rcases hfinal with hf | hretry
      · rcases hf with hf | hf | hf | hf <;> simp [hf]
      · simp [hretry])
  · exact owned_persisted hdb hlocked hplan hpersisted
  · exact single_rewrites hdb hrewrites
  · exact exclusive_rewrites hdb hrewrites
  · exact stream_persisted hdb hlocked hplan hpersisted hcommits
  · rw [hcommits]
    exact fun c hc => exists_rewrites hrewrites (hdb.commits c hc)
  · exact manifests_persisted hdb hlocked hplan hpersisted

end Persisting

/-- A new completion, with the plan it persisted. -/
structure Completed (svc : Service) (db : Database) (commandId : UUID) (request : CompletionRequest)
    (now : Instant) (next : Database) (row : CommandRow) (context : CompletionContext)
    (plan : CompletionPlan) (command : CommandState) : Prop where
  locked : Locked db commandId context.command.attempt now false context row
  attempt : context.command.attempt = request.attempt
  planned : prepareCompletion svc.nfc context request = .ok plan
  persisted : ∃ base, Persisted db context plan svc.retryJitterKey base command ∧
    ∃ completions, next = { base with completions := completions }

theorem finalizeCommand_completed {db : Database} {commandId : UUID} {request : CompletionRequest}
    {now : Instant} {completed : Database × CompletionOutcome}
    (h : finalizeCommand svc db commandId request now = .ok completed) :
    ∃ row context plan command,
      Completed svc db commandId request now completed.1 row context plan command := by
  obtain ⟨context, hcontext, h⟩ := bind_eq_ok.mp h
  obtain ⟨row, hlocked⟩ := loadLockedCompletionContext_locked.mp hcontext
  obtain ⟨plan, hplan, h⟩ := bind_eq_ok.mp h
  obtain ⟨persisted, hpersisted, h⟩ := bind_eq_ok.mp h
  obtain ⟨completions, _, h⟩ := bind_eq_ok.mp h
  obtain rfl := Except.ok.inj h
  obtain ⟨command, hcommand⟩ := persistCompletionPlan_persisted hpersisted
  have hattempt : context.command.attempt = request.attempt :=
    (prepareCompletion_eq_ok.mp hplan).1.2.1
  exact ⟨row, context, plan, command, by rw [hattempt]; exact hlocked, hattempt, hplan,
    persisted.1, hcommand, completions, rfl⟩

structure Recovered (svc : Service) (db : Database) (commandId : UUID) (contextNow : Instant)
    (next : Database) (row : CommandRow) (context : CompletionContext) (plan : CompletionPlan)
    (command : CommandState) : Prop where
  locked : Locked db commandId context.command.attempt contextNow true context row
  planned : prepareStaleRecovery svc.nfc context svc.retryJitterKey = .ok (some plan)
  persisted : Persisted db context plan svc.retryJitterKey next command
  change : ∃ op, Change context.command op command

/-- One row of a pass: left alone, recovered with its runs, or released without any. -/
theorem reconcileRow_cases {db next : Database} {commandId : UUID} {now contextNow : Instant}
    (h : reconcileRow svc db commandId now contextNow = .ok next) :
    ∃ row, db.commands.find? commandId = some row ∧
      (next = db ∨
      (∃ context plan command,
        Recovered svc db commandId contextNow next row context plan command) ∨
      (¬((row.state.status = .running ∨ row.state.status = .staleAbandoned) ∧
          db.runsOf commandId row.state.attempt ≠ []) ∧
        ∃ state, releaseCommand row.state now svc.retryJitterKey = .ok state ∧
          next = db.setCommand state)) := by
  obtain ⟨row, hrow, h⟩ := bind_eq_ok.mp h
  refine ⟨row, present_eq_ok.mp hrow, ?_⟩
  split at h
  · rename_i hrecover
    obtain ⟨context, hcontext, hrest⟩ := bind_eq_ok.mp h
    obtain ⟨other, hlocked⟩ := loadLockedCompletionContext_locked.mp hcontext
    obtain ⟨answer, hanswer, hnext⟩ := bind_eq_ok.mp hrest
    obtain rfl := Option.some.inj (hlocked.located.symm.trans (present_eq_ok.mp hrow))
    cases answer with
    | none => exact .inl (Except.ok.inj hnext).symm
    | some plan =>
      obtain ⟨persisted, hpersisted, hnext⟩ := bind_eq_ok.mp hnext
      obtain rfl := Except.ok.inj hnext
      obtain ⟨command, hcommand⟩ := persistCompletionPlan_persisted hpersisted
      obtain ⟨hrunning, hstatus, hbudget⟩ := prepareStaleRecovery_budget hanswer
      refine .inr (.inl ⟨context, plan, command, ?_, hanswer, hcommand, .recover context.runs now,
        completedCommand_cases hrunning hstatus (fun hretry => .inl (hbudget hretry))
          hcommand.completed⟩)
      rw [hlocked.command]
      exact hlocked
  · rename_i hrelease
    obtain ⟨state, hstate, h⟩ := bind_eq_ok.mp h
    exact .inr (.inr ⟨hrelease, state, hstate, (Except.ok.inj h).symm⟩)

theorem releaseCommand_settled {s t : CommandState} {now : Instant} {key : Bytes}
    (h : releaseCommand s now key = .ok t) :
    t.status ≠ .staleAbandoned := by
  obtain ⟨state, hmark, hnext⟩ := bind_eq_ok.mp h
  split at hnext
  · rename_i habandoned
    rw [markStale_abandoned habandoned] at hnext
    obtain ⟨status, _, rfl, hbudget⟩ := releaseAbandoned_eq_ok hnext
    rcases hbudget with ⟨_, rfl⟩ | ⟨_, rfl⟩ <;> simp
  · rename_i hkept
    obtain rfl := Except.ok.inj hnext
    exact hkept

end Finalizations

section Runs
variable {svc : Service}

theorem storeInvariant_materialize {db next : Database} {row : CommandRow}
    (hdb : StoreInvariant db) (h : materialize db row = .ok next) : StoreInvariant next := by
  obtain ⟨hissued, h⟩ := require_bind.mp h
  obtain ⟨commands, hcommands, h⟩ := bind_eq_ok.mp h
  obtain rfl := Except.ok.inj h
  have hinsert := present_eq_ok.mp hcommands
  have hfree := (Table.insert?_eq_some.mp hinsert).1
  refine ⟨fun other hother => ?_, fun r hr => ?_, hdb.single, hdb.exclusive, hdb.stream,
    hdb.commits, hdb.manifests⟩
  · rcases (Table.mem_insert hinsert).mp hother with hold | rfl
    · exact hdb.commands other hold
    · exact ⟨lifecycle_issued ⟨hissued.1, hissued.2.1, hissued.2.2⟩, by simp [hissued.1]⟩
  · obtain ⟨owner, howner, howned⟩ := hdb.owned r hr
    refine ⟨owner, ?_, howned⟩
    rw [Table.find?_insert hinsert]
    split
    · rename_i heq
      rw [heq, howner] at hfree
      cases hfree
    · exact howner

/-- The elementary moves that every transaction but a page is made of. -/
inductive Move (svc : Service) (db : Database) : Database → Prop
  | govern {change : Governance} {next : Database} (governed : govern db change = .ok next) :
      Move svc db next
  | materialize {row : CommandRow} {next : Database} (issued : materialize db row = .ok next) :
      Move svc db next
  | command {row : CommandRow} {state : CommandState} {op : CommandLifecycle.Operation}
      (located : db.commands.find? row.state.id = some row) (change : Change row.state op state)
      (settled : state.status ≠ .staleAbandoned)
      (quiet : row.state.status = .running → state.status ≠ .running →
        ∀ r ∈ db.runs, r.commandId = row.state.id → r.attempt ≠ row.state.attempt) :
      Move svc db (db.setCommand state)
  | beat (commandId : UUID) (attempt : ℕ) (heartbeatAt : Instant) :
      Move svc db (beatRuns db commandId attempt heartbeatAt)
  | claim {commandId : UUID} {credentials : ClaimCredentials} {sourceIds : List UUID}
      {clock : ℕ → Instant} {ids : FreshIds} {claimed : Database × ClaimResult}
      (claims : claim svc db commandId credentials sourceIds clock ids = .ok claimed) :
      Move svc db claimed.1
  | proof {op : SkipDecisionOperation} {clock : ℕ → Instant} {ids : FreshIds}
      {attached : Database × ℕ × Bytes}
      (attaches : attachSkipDecision svc db op clock ids = .ok attached) : Move svc db attached.1
  | plan {commandId : UUID} {now : Instant} {allow : Bool} {context : CompletionContext}
      {row : CommandRow} {plan : CompletionPlan} {next : Database}
      {results : List (RunState × Option PublicationDraft)} {command : CommandState}
      {op : CommandLifecycle.Operation}
      (locked : Locked db commandId context.command.attempt now allow context row)
      (finalizes : Finalizes svc.nfc context plan results)
      (persisted : Persisted db context plan svc.retryJitterKey next command)
      (change : Change context.command op command) : Move svc db next
  | receipt (completions : Table (fun row : CommandCompletionRow =>
      (row.commandId, row.completionIdempotencyKey))) :
      Move svc db { db with completions := completions }

theorem completed_moves {db next : Database} {commandId : UUID} {request : CompletionRequest}
    {now : Instant} {row : CommandRow} {context : CompletionContext} {plan : CompletionPlan}
    {command : CommandState}
    (h : Completed svc db commandId request now next row context plan command) :
    Relation.ReflTransGen (Move svc) db next := by
  obtain ⟨base, hpersisted, completions, rfl⟩ := h.persisted
  obtain ⟨results, hplan⟩ := finalizes_of_completion h.planned
  have hstep : CommandLifecycle.step svc.nfc context.command
      ⟨.complete request context.runs, context.dbNow, svc.retryJitterKey⟩ = .ok command :=
    bind_eq_ok.mpr ⟨plan, h.planned, hpersisted.completed⟩
  have hmove : Move svc db base := .plan h.locked hplan hpersisted (step_change hstep)
  exact .tail (.single hmove) (.receipt completions)

theorem complete_moves {db : Database} {commandId : UUID} {request : CompletionRequest}
    {now : Instant} {completed : Database × CompletionOutcome}
    (h : executeCompletion svc db commandId request now = .ok completed) :
    Relation.ReflTransGen (Move svc) db completed.1 := by
  obtain ⟨_, _, h⟩ := bind_eq_ok.mp h
  obtain ⟨_, h⟩ := require_bind.mp h
  split at h
  · obtain ⟨_, h⟩ := require_bind.mp h
    obtain ⟨_, _, h⟩ := bind_eq_ok.mp h
    obtain rfl := Except.ok.inj h
    exact .refl
  · obtain ⟨row, context, plan, command, hcompleted⟩ := finalizeCommand_completed h
    exact completed_moves hcompleted

theorem reconcileRow_moves {db next : Database} {commandId : UUID} {now contextNow : Instant}
    (h : reconcileRow svc db commandId now contextNow = .ok next) :
    Relation.ReflTransGen (Move svc) db next := by
  obtain ⟨row, hrow, rfl | ⟨context, plan, command, hrecovered⟩ | ⟨hrelease, state, hstate, rfl⟩⟩ :=
    reconcileRow_cases h
  · exact .refl
  · obtain ⟨op, hchange⟩ := hrecovered.change
    obtain ⟨results, hplan⟩ := finalizes_of_recovery hrecovered.planned
    exact .single (.plan hrecovered.locked hplan hrecovered.persisted hchange)
  · have hkey := (Table.find?_eq_some.mp hrow).2
    have hlocated : db.commands.find? row.state.id = some row := by
      rw [hkey]
      exact hrow
    have hchange : Change row.state (.markStale false) state := releaseCommand_change _ hstate
    refine .single (.command hlocated hchange (releaseCommand_settled hstate) ?_)
    intro hrunning _ r hr hcommand hattempt
    refine hrelease ⟨.inl hrunning, List.ne_nil_of_mem (a := r) ?_⟩
    exact mem_runsOf.mpr ⟨hr, hcommand.trans hkey, hattempt⟩

theorem reconcileRows_moves {now : Instant} {clock : ℕ → Instant} {k : ℕ} {db next : Database}
    {commandIds : List UUID} (h : reconcileRows svc now clock k db commandIds = .ok next) :
    Relation.ReflTransGen (Move svc) db next := by
  induction commandIds generalizing k db with
  | nil =>
    obtain rfl := Except.ok.inj h
    exact .refl
  | cons commandId rest ih =>
    obtain ⟨mid, hmid, h⟩ := bind_eq_ok.mp h
    exact (reconcileRow_moves hmid).trans (ih h)

theorem step_moves {db next : Database} {tx : Transaction}
    (h : ControlPlane.step svc db tx = .ok next) :
    (∃ runId request committed, tx.operation = .commitPage runId request ∧
      executePageCommit svc db runId request tx.clock tx.ids.page = .ok committed ∧
      committed.1 = next) ∨
    Relation.ReflTransGen (Move svc) db next := by
  obtain ⟨operation, clock, ids⟩ := tx
  cases operation with
  | materialize row => exact .inr (.single (.materialize h))
  | govern change => exact .inr (.single (.govern h))
  | reserve commandId reservation =>
    obtain ⟨row, hrow, h⟩ := bind_eq_ok.mp h
    obtain ⟨state, hstate, h⟩ := bind_eq_ok.mp h
    obtain rfl := Except.ok.inj h
    have hfind := lockedCommand_eq_ok.mp hrow
    have hchange : Change row.state (.reserve reservation) state := .reserve reservation _ hstate
    obtain ⟨_, _, hopen, _, rfl⟩ := reserveDispatch_eq_ok.mp hstate
    refine .inr (.single (.command ?_ hchange (by simp) ?_))
    · rw [(Table.find?_eq_some.mp hfind).2]
      exact hfind
    · intro hrunning
      simp [hrunning] at hopen
  | confirm commandId confirmation =>
    obtain ⟨row, hrow, h⟩ := bind_eq_ok.mp h
    obtain ⟨state, hstate, h⟩ := bind_eq_ok.mp h
    obtain rfl := Except.ok.inj h
    have hfind := lockedCommand_eq_ok.mp hrow
    obtain ⟨hreserved, rfl⟩ := confirmDispatch_eq_ok hstate
    refine .inr (.single (.command ?_ (.confirm confirmation (clock 0) hreserved) (by simp) ?_))
    · rw [(Table.find?_eq_some.mp hfind).2]
      exact hfind
    · intro hrunning
      rw [hreserved] at hrunning
      cases hrunning
  | claim commandId credentials sourceIds =>
    obtain ⟨claimed, hclaimed, h⟩ := bind_eq_ok.mp h
    obtain rfl := Except.ok.inj h
    exact .inr (.single (.claim hclaimed))
  | heartbeat commandId credentials =>
    obtain ⟨row, hrow, h⟩ := bind_eq_ok.mp h
    obtain ⟨state, hstate, h⟩ := bind_eq_ok.mp h
    obtain ⟨_, h⟩ := require_bind.mp h
    obtain rfl := Except.ok.inj h
    have hfind := lockedCommand_eq_ok.mp hrow
    obtain ⟨⟨hrunning, _⟩, rfl⟩ := heartbeatCommand_eq_ok hstate
    have hlocated : db.commands.find? row.state.id = some row := by
      rw [(Table.find?_eq_some.mp hfind).2]
      exact hfind
    refine .inr (.tail (.single (.beat _ _ _)) (.command hlocated
      (.heartbeat credentials (clock 0) hrunning) (by simp [hrunning]) ?_))
    exact fun _ hne => absurd hrunning hne
  | commitPage runId request =>
    obtain ⟨committed, hcommitted, h⟩ := bind_eq_ok.mp h
    exact .inl ⟨runId, request, committed, rfl, hcommitted, Except.ok.inj h⟩
  | attachSkip operation =>
    obtain ⟨attached, hattached, h⟩ := bind_eq_ok.mp h
    obtain rfl := Except.ok.inj h
    exact .inr (.single (.proof hattached))
  | complete commandId request =>
    obtain ⟨completed, hcompleted, h⟩ := bind_eq_ok.mp h
    obtain rfl := Except.ok.inj h
    exact .inr (complete_moves hcompleted)
  | recoverDue scopeVersion =>
    obtain ⟨recovered, hrecovered, h⟩ := bind_eq_ok.mp h
    obtain rfl := Except.ok.inj h
    obtain ⟨reconciled, hreconciled, hrecovered⟩ := bind_eq_ok.mp hrecovered
    obtain rfl := Except.ok.inj hrecovered
    exact .inr (reconcileRows_moves hreconciled)

theorem moves_invariant {I : Database → Prop} {db next : Database}
    (hmove : ∀ a b, I a → Move svc a b → I b) (h : I db)
    (hmoves : Relation.ReflTransGen (Move svc) db next) : I next := by
  induction hmoves with
  | refl => exact h
  | tail _ hstep ih => exact hmove _ _ ih hstep

theorem storeInvariant_move {db next : Database} (hdb : StoreInvariant db)
    (h : Move svc db next) : StoreInvariant next := by
  cases h with
  | @govern change next governed =>
    cases change with
    | setSource row =>
      obtain rfl := Except.ok.inj governed
      exact storeInvariant_of_tables hdb rfl rfl rfl rfl rfl
    | addAuthorization row | addBudgetRecord row =>
      obtain ⟨_, _, governed⟩ := bind_eq_ok.mp governed
      obtain rfl := Except.ok.inj governed
      exact storeInvariant_of_tables hdb rfl rfl rfl rfl rfl
  | materialize issued => exact storeInvariant_materialize hdb issued
  | command located change settled quiet =>
    exact storeInvariant_setCommand hdb located change settled quiet
  | beat commandId attempt heartbeatAt => exact storeInvariant_beatRuns hdb _ _ _
  | claim claims => exact storeInvariant_claim hdb claims
  | proof attaches => exact storeInvariant_attachSkip hdb attaches
  | plan locked finalizes persisted change =>
    exact storeInvariant_persisted hdb locked finalizes persisted change
  | receipt completions => exact storeInvariant_of_tables hdb rfl rfl rfl rfl rfl

/-- Every transaction keeps the invariant. -/
theorem storeInvariant_step {db next : Database} {tx : Transaction} (hdb : StoreInvariant db)
    (h : ControlPlane.step svc db tx = .ok next) : StoreInvariant next := by
  rcases step_moves h with ⟨runId, request, committed, _, hcommitted, rfl⟩ | hmoves
  · exact storeInvariant_commitPage hdb hcommitted
  · exact moves_invariant (fun _ _ => storeInvariant_move) hdb hmoves

/-- A database before any collection: governance rows and checkpoints only. -/
structure Bare (db : Database) : Prop where
  commands : db.commands.rows = []
  runs : db.runs.rows = []
  commits : db.commits.rows = []
  sequences : db.sequences.rows = []
  manifests : db.manifests.rows = []

theorem storeInvariant_bare {db : Database} (h : Bare db) : StoreInvariant db := by
  constructor <;> simp only [Table.mem_def, h.commands, h.runs, h.commits, h.manifests] <;> simp

theorem storeInvariant_run {db : Database} (h : StoreInvariant db) (txs : List Transaction) :
    StoreInvariant (run (ControlPlane.step svc) db txs) :=
  run_invariant (fun _ _ _ hdb hstep => storeInvariant_step hdb hstep) txs h

end Runs

section Sample

def storySource (id : UUID) : SourceRow :=
  { sampleSource with id := id, activeAuthorizationId := some (id + 100) }

def storyDecision (sourceId : UUID) : AuthorizationRow :=
  { sampleDecision with
    id := sourceId + 100
    sourceId := sourceId
    expiresAt := some (seconds 100000) }

def storyBudget : BudgetRecordRow where
  id := 7
  provider := .manifold
  billingPeriodStart := 0
  billingPeriodEnd := seconds 100000
  verifiedAt := 0
  facts := ⟨0, 70, 80, false⟩

/-- Two authorized sources within their budget, and nothing collected yet. -/
def storyStart : Database :=
  { sampleDatabase with
    sources := ⟨[storySource 3, storySource 4], by decide⟩
    authorizations := ⟨[storyDecision 3, storyDecision 4], by decide⟩
    budgetRecords := ⟨[storyBudget], by decide⟩
    commands := Table.empty
    checkpoints := Table.empty
    runs := Table.empty }

theorem storyStart_bare : Bare storyStart := ⟨rfl, rfl, rfl, rfl, rfl⟩

def storyService : Service := sampleService ⟨2, .succeeded, 0, []⟩

def storyCommand (sourceIds : List UUID) : CommandRow where
  state := {
    id := 2, scopeVersion := "scope-v1", sourceIds := sourceIds, kind := .scheduled
    status := .queued, attempt := 1, availableAt := 0 }
  sourceSetHash := collectionSourceSetHash id sourceIds
  createdAt := 0

/-- The identities drawn for attempt `k`. -/
def storyIds (k : ℕ) : FreshIds where
  run sourceId := sourceId + 1000 + BitVec.ofNat 128 (100 * k)
  checkpoint sourceId := sourceId + 2000
  budgetDecision sourceId := sourceId + 3000 + BitVec.ofNat 128 (100 * k)
  page n := 4000 + BitVec.ofNat 128 (100 * k + n)
  skipDecision := 5000 + BitVec.ofNat 128 k

/-- The only page of a run of attempt `attempt`; it exhausts the source. -/
def storyPage (attempt : ℕ) (h : 1 ≤ attempt ∧ attempt ≤ maxCommandAttempts) :
    PageCommitRequest where
  commandId := 2
  attempt := attempt
  leaseToken := sampleToken
  pageIdempotencyKey := 100
  expectedCheckpointRevision := 0
  expectedCursor := none
  nextCursor := some "c1"
  pageOrdinal := 0
  posts := []
  sourcePageItemCount := 0
  sourcePageReceiptSha256 := 7
  pageFetchStartedAt := Datetime.utc 30
  pageFetchFinishedAt := Datetime.utc 35
  isTerminalPage := true
  terminalReason := some .sourceExhausted
  valid := ⟨h, sampleToken_valid, by simp, rfl, rfl, Iff.rfl, by simp [Datetime.utc]⟩

/-- Reserve the command for an attempt at time `now` and claim its sources. -/
def storyClaim (sourceIds : List UUID) (attempt : ℕ) (now : Instant) : List Transaction :=
  [⟨.reserve 2 ⟨sampleToken, sampleToken⟩, fun _ => now, storyIds attempt⟩,
    ⟨.claim 2 ⟨attempt, sampleToken, sampleToken⟩ sourceIds, fun _ => now, storyIds attempt⟩]

def storyReport (attempt : ℕ) (h : 1 ≤ attempt ∧ attempt ≤ maxCommandAttempts)
    (outcomes : List CompletionSourceOutcome) (hne : outcomes ≠ []) : CompletionRequest where
  completionIdempotencyKey := 500 + BitVec.ofNat 128 attempt
  attempt := attempt
  leaseToken := sampleToken
  sourceOutcomes := outcomes
  validAttempt := h
  validLeaseToken := sampleToken_valid
  nonempty := hne

def storedRun (db : Database) (runId : UUID) : RunState := (db.runs.find? runId).getD sampleRun

end Sample

end PredictionMarketMonitor.ReachableStores
