import PredictionMarketMonitor.ControlPlane

set_option autoImplicit false

/-!
# What a persisted plan writes

The tables `persist_completion_plan` leaves, as functions of the tables it
finds: the finalized run rows, the last completed run of each checkpoint, and
the numbered publications of each source.
-/
namespace PredictionMarketMonitor.PlanEffects

open CanonicalJson CivilTime CollectionBase CollectionModels CommandLifecycle Completion
open CompletionStore ControlPlane ControlPlaneTables FallibleSteps KeyedTable Sha256 StaleRecovery
open ThreadedLog

section Runs

def SameClaim (r t : RunState) : Prop :=
  t.id = r.id ∧ t.commandId = r.commandId ∧ t.sourceId = r.sourceId ∧
    t.scopeVersion = r.scopeVersion ∧ t.attempt = r.attempt

theorem sameClaim_refl (r : RunState) : SameClaim r r := ⟨rfl, rfl, rfl, rfl, rfl⟩

theorem sameClaim_trans {r s t : RunState} (h : SameClaim r s) (k : SameClaim s t) :
    SameClaim r t :=
  ⟨k.1.trans h.1, k.2.1.trans h.2.1, k.2.2.1.trans h.2.2.1, k.2.2.2.1.trans h.2.2.2.1,
    k.2.2.2.2.trans h.2.2.2.2⟩

def settledRun (states : List RunState) (r : RunState) : RunState :=
  states.foldl (fun r s => if r.id = s.id then applyRunState r s else r) r

theorem settledRun_cons (s : RunState) (states : List RunState) (r : RunState) :
    settledRun (s :: states) r =
      settledRun states (if r.id = s.id then applyRunState r s else r) := rfl

theorem settledRun_claim (states : List RunState) (r : RunState) :
    SameClaim r (settledRun states r) := by
  induction states generalizing r with
  | nil => exact sameClaim_refl r
  | cons s states ih =>
    have hfirst : SameClaim r (if r.id = s.id then applyRunState r s else r) := by
      split
      · exact ⟨rfl, rfl, rfl, rfl, rfl⟩
      · exact sameClaim_refl r
    rw [settledRun_cons]
    exact sameClaim_trans hfirst (ih _)

theorem settledRun_of_absent {states : List RunState} {r : RunState}
    (h : ∀ s ∈ states, s.id ≠ r.id) : settledRun states r = r := by
  induction states with
  | nil => rfl
  | cons s states ih =>
    have hne : r.id ≠ s.id := fun heq => h s (by simp) heq.symm
    rw [settledRun_cons, if_neg hne]
    exact ih fun t ht => h t (by simp [ht])

theorem settledRun_of_mem {states : List RunState} {s r : RunState}
    (hdistinct : (states.map (·.id)).Nodup) (hs : s ∈ states) (hid : s.id = r.id) :
    settledRun states r = applyRunState r s := by
  induction states with
  | nil => simp at hs
  | cons t states ih =>
    rw [List.map_cons, List.nodup_cons] at hdistinct
    rw [settledRun_cons]
    rcases List.mem_cons.mp hs with rfl | hs
    · rw [if_pos hid.symm]
      refine settledRun_of_absent fun t ht heq => hdistinct.1 ?_
      rw [hid]
      exact List.mem_map.mpr ⟨t, ht, heq⟩
    · have hne : r.id ≠ t.id := by
        intro heq
        exact hdistinct.1 (List.mem_map.mpr ⟨s, hs, hid.trans heq⟩)
      rw [if_neg hne]
      exact ih hdistinct.2 hs

theorem persistRun_runs (facts : List RunCompletionFacts) (db : Database) (s : RunState) :
    (persistRun facts db s).runs = (db.setRun s).runs := by
  unfold persistRun
  split
  · split <;> rfl
  · rfl

theorem persistRuns_rows (facts : List RunCompletionFacts) (db : Database)
    (states : List RunState) :
    (states.foldl (persistRun facts) db).runs.rows = db.runs.rows.map (settledRun states) := by
  induction states generalizing db with
  | nil => exact (List.map_id _).symm
  | cons s states ih =>
    have hfirst : (persistRun facts db s).runs.rows =
        db.runs.rows.map (fun r => if r.id = s.id then applyRunState r s else r) := by
      rw [persistRun_runs]
      rfl
    rw [List.foldl_cons, ih, hfirst, List.map_map]
    rfl

end Runs

section Checkpoints

/-- A finalized success of the checkpoint with key `key`. -/
def Completes (facts : List RunCompletionFacts) (key : UUID × String) (s : RunState) : Prop :=
  s.status = .succeeded ∧ ∃ f ∈ facts.find? (fun f => f.run.id = s.id),
    CheckpointState.key f.checkpoint = key

instance (facts : List RunCompletionFacts) (key : UUID × String) (s : RunState) :
    Decidable (Completes facts key s) := inferInstanceAs (Decidable (_ ∧ _))

/-- The last completed run of a checkpoint after finalized states are persisted. -/
def lastCompleted (facts : List RunCompletionFacts) (key : UUID × String)
    (states : List RunState) (last : Option UUID) : Option UUID :=
  states.foldl (fun last s => if Completes facts key s then some s.id else last) last

def SameProgress (c d : CheckpointState) : Prop :=
  d = { c with lastCompletedRunId := d.lastCompletedRunId }

/-- The locked checkpoints are those of the table, up to the last completed run. -/
def Current (db : Database) (facts : List RunCompletionFacts) : Prop :=
  ∀ f ∈ facts, ∀ c, db.checkpoints.find? (CheckpointState.key f.checkpoint) = some c →
    SameProgress c f.checkpoint

theorem persistRun_checkpoints {facts : List RunCompletionFacts} {db : Database} {s : RunState}
    (hcurrent : Current db facts) (key : UUID × String) :
    (persistRun facts db s).checkpoints.find? key = (db.checkpoints.find? key).map (fun c =>
      { c with lastCompletedRunId := lastCompleted facts key [s] c.lastCompletedRunId }) := by
  have hkeep (hnot : ¬Completes facts key s) : db.checkpoints.find? key =
      (db.checkpoints.find? key).map (fun c =>
        { c with lastCompletedRunId := lastCompleted facts key [s] c.lastCompletedRunId }) := by
    cases db.checkpoints.find? key with
    | none => rfl
    | some c =>
      have hlast : lastCompleted facts key [s] c.lastCompletedRunId = c.lastCompletedRunId :=
        if_neg hnot
      rw [Option.map_some, hlast]
  unfold persistRun
  split
  · rename_i hstatus
    split
    · rename_i f hf
      have hmem : f ∈ facts := List.mem_of_find?_eq_some hf
      simp only [Database.setCheckpoint]
      by_cases hkey : key = CheckpointState.key f.checkpoint
      · subst hkey
        have hcompletes : Completes facts (CheckpointState.key f.checkpoint) s :=
          ⟨hstatus, f, hf, rfl⟩
        have hupdate := @Table.find?_update_self _ _ CheckpointState.key _ db.checkpoints
          (CheckpointState.key f.checkpoint)
          (fun row => applyCheckpointState row
            { f.checkpoint with lastCompletedRunId := some s.id })
          (fun row => applyCheckpointState_key row _)
        refine hupdate.trans ?_
        cases hfind : db.checkpoints.find? (CheckpointState.key f.checkpoint) with
        | none => rfl
        | some c =>
          have hlast : lastCompleted facts (CheckpointState.key f.checkpoint) [s]
              c.lastCompletedRunId = some s.id := if_pos hcompletes
          have hsame := hcurrent f hmem c hfind
          rw [Option.map_some, Option.map_some, hlast, hsame]
          rfl
      · have hnot : ¬Completes facts key s := by
          rintro ⟨_, g, hg, hgkey⟩
          rw [hf] at hg
          obtain rfl := Option.some.inj hg
          exact hkey hgkey.symm
        exact (Table.find?_update_ne hkey).trans (hkeep hnot)
    · rename_i hnone
      refine hkeep ?_
      rintro ⟨_, g, hg, _⟩
      rw [hnone] at hg
      cases hg
  · rename_i hstatus
    exact hkeep fun h => hstatus h.1

theorem current_persistRun {facts : List RunCompletionFacts} {db : Database} {s : RunState}
    (hcurrent : Current db facts) : Current (persistRun facts db s) facts := by
  intro f hf c hfind
  rw [persistRun_checkpoints hcurrent] at hfind
  obtain ⟨d, hd, rfl⟩ := Option.map_eq_some_iff.mp hfind
  have hsame := hcurrent f hf d hd
  rw [SameProgress, hsame]

theorem persistRuns_checkpoints {facts : List RunCompletionFacts} {db : Database}
    (hcurrent : Current db facts) (states : List RunState) (key : UUID × String) :
    (states.foldl (persistRun facts) db).checkpoints.find? key =
      (db.checkpoints.find? key).map (fun c =>
        { c with lastCompletedRunId := lastCompleted facts key states c.lastCompletedRunId }) := by
  induction states generalizing db with
  | nil =>
    rw [List.foldl_nil]
    cases db.checkpoints.find? key with
    | none => rfl
    | some c => rfl
  | cons s states ih =>
    rw [List.foldl_cons, ih (current_persistRun hcurrent), persistRun_checkpoints hcurrent]
    rw [Option.map_map]
    rfl

end Checkpoints

section Publications

/-- The publications of one source, in the order they were written. -/
def publicationsOf (db : Database) (sourceId : UUID) : List PublicationManifestRow :=
  db.manifests.rows.filter (fun m => m.draft.sourceId = sourceId)

def currentSequence (db : Database) (sourceId : UUID) : ℕ :=
  ((db.sequences.find? sourceId).map (·.currentSequence)).getD 0

/-- Each source counts its publications from 1, and its stored sequence is the count. -/
def Numbered (db : Database) : Prop :=
  ∀ sourceId,
    Threaded (·.sequence) (·.sequence + 1) 1 (publicationsOf db sourceId) ∧
      currentSequence db sourceId = (publicationsOf db sourceId).length

theorem find_advanceSequence (db : Database) (sourceId other : UUID) :
    (advanceSequence db sourceId).find? other =
      if other = sourceId then some ⟨sourceId, nextSequence db sourceId⟩
      else db.sequences.find? other := by
  unfold advanceSequence
  cases hinsert : db.sequences.insert? ⟨sourceId, nextSequence db sourceId⟩ with
  | some sequences =>
    rw [Option.getD_some, Table.find?_insert hinsert]
    by_cases heq : other = sourceId
    · rw [if_pos heq, if_pos heq.symm]
    · rw [if_neg heq, if_neg (Ne.symm heq)]
  | none =>
    rw [Option.getD_none]
    by_cases heq : other = sourceId
    · subst heq
      rw [if_pos rfl, Table.find?_update_self]
      cases hfind : db.sequences.find? other with
      | none =>
        obtain ⟨sequences, hsome⟩ := @Table.exists_insert _ _ PublicationSequenceRow.sourceId _
          db.sequences ⟨other, nextSequence db other⟩ hfind
        rw [hinsert] at hsome
        cases hsome
      | some row =>
        obtain ⟨_, rfl⟩ := Table.find?_eq_some.mp hfind
        rfl
    · rw [if_neg heq, Table.find?_update_ne heq]

theorem persistPublication_rows {db : Database} {draft : PublicationDraft} {now : Instant}
    {published : Database × CompletionPublicationResponse}
    (h : persistPublication db draft now = .ok published) :
    published.1.manifests.rows =
        db.manifests.rows ++ [⟨draft, nextSequence db draft.sourceId, now⟩] ∧
      published.1.sequences = advanceSequence db draft.sourceId := by
  obtain ⟨manifests, hmanifests, h⟩ := bind_eq_ok.mp h
  obtain rfl := Except.ok.inj h
  exact ⟨(Table.insert?_eq_some.mp (present_eq_ok.mp hmanifests)).2, rfl⟩

theorem numbered_persistPublication {db : Database} {draft : PublicationDraft} {now : Instant}
    {published : Database × CompletionPublicationResponse} (hdb : Numbered db)
    (h : persistPublication db draft now = .ok published) : Numbered published.1 := by
  obtain ⟨hrows, hsequences⟩ := persistPublication_rows h
  intro sourceId
  obtain ⟨hcounted, hcurrent⟩ := hdb sourceId
  rw [publicationsOf, currentSequence, hrows, hsequences, find_advanceSequence, List.filter_append]
  by_cases heq : sourceId = draft.sourceId
  · subst heq
    have hnext : nextSequence db draft.sourceId = (publicationsOf db draft.sourceId).length + 1 := by
      rw [← hcurrent]
      rfl
    have hlast : [(⟨draft, nextSequence db draft.sourceId, now⟩ : PublicationManifestRow)].filter
        (fun m => m.draft.sourceId = draft.sourceId) =
          [⟨draft, nextSequence db draft.sourceId, now⟩] := by simp
    rw [hlast, if_pos rfl]
    refine ⟨threaded_snoc.mpr ⟨hcounted, ?_⟩, ?_⟩
    · have hfinish := counter_finish hcounted
      change nextSequence db draft.sourceId = _
      rw [hnext]
      exact (Nat.add_comm _ _).trans hfinish.symm
    · rw [List.length_append, List.length_singleton]
      exact hnext
  · have hlast : [(⟨draft, nextSequence db draft.sourceId, now⟩ : PublicationManifestRow)].filter
        (fun m => m.draft.sourceId = sourceId) = [] := by simp [Ne.symm heq]
    rw [hlast, List.append_nil, if_neg heq]
    exact ⟨hcounted, hcurrent⟩

theorem numbered_persistPublications {now : Instant} {db : Database}
    {drafts : List PublicationDraft}
    {published : Database × List CompletionPublicationResponse} (hdb : Numbered db)
    (h : persistPublications now db drafts = .ok published) : Numbered published.1 := by
  induction drafts generalizing db published with
  | nil =>
    obtain rfl := Except.ok.inj h
    exact hdb
  | cons draft rest ih =>
    obtain ⟨first, hfirst, h⟩ := bind_eq_ok.mp h
    obtain ⟨others, hothers, h⟩ := bind_eq_ok.mp h
    obtain rfl := Except.ok.inj h
    have hrest : Numbered others.1 := ih (numbered_persistPublication hdb hfirst) hothers
    exact hrest

theorem persistPublications_rows {now : Instant} {db : Database} {drafts : List PublicationDraft}
    {published : Database × List CompletionPublicationResponse}
    (h : persistPublications now db drafts = .ok published) :
    ∃ added, published.1.manifests.rows = db.manifests.rows ++ added ∧
      added.map (·.draft) = drafts ∧ ∀ m ∈ added, m.committedAt = now := by
  induction drafts generalizing db published with
  | nil =>
    obtain rfl := Except.ok.inj h
    exact ⟨[], (List.append_nil _).symm, rfl, by simp⟩
  | cons draft rest ih =>
    obtain ⟨first, hfirst, h⟩ := bind_eq_ok.mp h
    obtain ⟨others, hothers, h⟩ := bind_eq_ok.mp h
    obtain rfl := Except.ok.inj h
    obtain ⟨added, hrows, hdrafts, hstamp⟩ := ih hothers
    refine ⟨⟨draft, nextSequence db draft.sourceId, now⟩ :: added, ?_, ?_, ?_⟩
    · rw [hrows, (persistPublication_rows hfirst).1, List.append_assoc]
      rfl
    · rw [List.map_cons, hdrafts]
    · exact List.forall_mem_cons.mpr ⟨rfl, hstamp⟩

end Publications

section Plans
variable {nfc : Text → Text}

def FinalizedAs (nfc : Text → Text) (context : CompletionContext) (facts : RunCompletionFacts)
    (result : RunState × Option PublicationDraft) : Prop :=
  ∃ outcome, outcome.runId = facts.run.id ∧
    prepareRun nfc context.command facts outcome context.dbNow = .ok result

/-- What completion and recovery plans have in common. A recovery may keep the
    command retryable where its finished siblings would aggregate otherwise. -/
structure Finalizes (nfc : Text → Text) (context : CompletionContext) (plan : CompletionPlan)
    (results : List (RunState × Option PublicationDraft)) : Prop where
  running : context.command.status = .running
  distinct : (context.runs.map (·.run.id)).Nodup
  each : List.Forall₂ (FinalizedAs nfc context) (byRunId context.runs) results
  runs : plan.runs = results.map Prod.fst
  publications : plan.publications = results.filterMap Prod.snd
  completedAt : plan.completedAt = context.dbNow
  aggregate : aggregateCommandStatus (plan.runs.map (·.status)) = .ok plan.commandStatus ∨
    (plan.commandStatus = .failedRetryable ∧ .failedRetryable ∈ plan.runs.map (·.status))

theorem finalizes_of_planned {context : CompletionContext}
    {outcomes : List CompletionSourceOutcome} {requestHash : Digest} {plan : CompletionPlan}
    {results : List (RunState × Option PublicationDraft)}
    (h : Planned nfc context outcomes requestHash plan results) :
    Finalizes nfc context plan results where
  running := h.running
  distinct := h.sameSet.1
  each := h.finalized.imp fun _ _ ⟨outcome, hfind, hprepare⟩ =>
    ⟨outcome, by simpa using List.find?_some hfind, hprepare⟩
  runs := h.runs
  publications := h.publications
  completedAt := h.stamp.2
  aggregate := .inl h.status

theorem finalizes_of_completion {context : CompletionContext} {request : CompletionRequest}
    {plan : CompletionPlan} (h : prepareCompletion nfc context request = .ok plan) :
    ∃ results, Finalizes nfc context plan results := by
  obtain ⟨_, results, hplanned⟩ := prepareCompletion_eq_ok.mp h
  exact ⟨results, finalizes_of_planned hplanned⟩

theorem releasedCommand_unready {context : CompletionContext} {key : Bytes}
    {released : CommandState} (h : releasedCommand context key = .ok (some released)) :
    ∃ facts ∈ context.runs, ¬Ready facts := by
  unfold releasedCommand at h
  split at h
  · cases h
  · rename_i hready
    rw [readyRuns_all] at hready
    simpa only [not_forall, exists_prop] using hready

theorem plannedRecovery_finalizes {context : CompletionContext} {key : Bytes}
    {released : Option CommandState} {plan : CompletionPlan}
    (hreleased : releasedCommand context key = .ok released)
    (h : plannedRecovery nfc context released = .ok plan) :
    ∃ results, Finalizes nfc context plan results := by
  obtain ⟨⟨status, retryAfterAt⟩, hfacts, h⟩ := bind_eq_ok.mp h
  obtain ⟨outcomes, houtcomes, h⟩ := bind_eq_ok.mp h
  obtain ⟨base, hbase, h⟩ := bind_eq_ok.mp h
  obtain ⟨results, hplanned⟩ := prepareServerCompletion_eq_ok.mp hbase
  split at h
  · rename_i hmixed
    obtain rfl := Except.ok.inj h
    refine ⟨results, hplanned.running, hplanned.sameSet.1, (finalizes_of_planned hplanned).each,
      hplanned.runs, hplanned.publications, hplanned.stamp.2, .inr ⟨rfl, ?_⟩⟩
    obtain rfl := releasedFacts_status hfacts
    obtain ⟨command, hcommand, _⟩ := Option.map_eq_some_iff.mp hmixed.1
    rw [hcommand] at hreleased
    obtain ⟨facts, hmem, hunready⟩ := releasedCommand_unready hreleased
    obtain ⟨outcome, houtcome, hrecovery⟩ :=
      forall₂_mem_left (mapM_forall₂.mp houtcomes) facts hmem
    have hretry : outcome.terminalStatus = .failedRetryable := by
      have hnone : ¬facts.run.completionReadyAt.isSome = true := hunready
      rw [hmixed.1, recoveryOutcome, if_neg hnone] at hrecovery
      obtain rfl := Except.ok.inj hrecovery
      rfl
    exact (planned_statuses hplanned _).mpr (List.mem_map.mpr ⟨outcome, houtcome, hretry⟩)
  · obtain rfl := Except.ok.inj h
    exact ⟨results, finalizes_of_planned hplanned⟩

theorem finalizes_of_recovery {context : CompletionContext} {key : Bytes} {plan : CompletionPlan}
    (h : prepareStaleRecovery nfc context key = .ok (some plan)) :
    ∃ results, Finalizes nfc context plan results := by
  obtain ⟨_, _, h⟩ := bind_eq_ok.mp h
  split at h
  · cases h
  · obtain ⟨released, hreleased, h⟩ := bind_eq_ok.mp h
    split at h
    · cases h
    · obtain ⟨other, hother, h⟩ := bind_eq_ok.mp h
      obtain rfl := Option.some.inj (Except.ok.inj h)
      exact plannedRecovery_finalizes hreleased hother

variable {context : CompletionContext} {plan : CompletionPlan}
  {results : List (RunState × Option PublicationDraft)}

theorem finalizes_status (h : Finalizes nfc context plan results) :
    Final plan.commandStatus ∨ plan.commandStatus = .failedRetryable := by
  rcases h.aggregate with haggregate | hretry
  · exact final_of_aggregate haggregate
  · exact .inr hretry.1

theorem finalizedAs_id {facts : RunCompletionFacts} {result : RunState × Option PublicationDraft}
    (h : FinalizedAs nfc context facts result) : result.1.id = facts.run.id := by
  obtain ⟨outcome, _, hprepare⟩ := h
  obtain ⟨_, _, _, _, _, _, hresult⟩ := prepareRun_eq_ok.mp hprepare
  rw [hresult]
  rfl

theorem finalizes_ids (h : Finalizes nfc context plan results) :
    plan.runs.map (·.id) = (byRunId context.runs).map (·.run.id) := by
  have hids {runs : List RunCompletionFacts} {rs : List (RunState × Option PublicationDraft)}
      (heach : List.Forall₂ (FinalizedAs nfc context) runs rs) :
      (rs.map Prod.fst).map (·.id) = runs.map (·.run.id) := by
    induction heach with
    | nil => rfl
    | cons hr _ ih => simp only [List.map_cons, ih, finalizedAs_id hr]
  rw [h.runs]
  exact hids h.each

theorem finalizes_distinct (h : Finalizes nfc context plan results) :
    (plan.runs.map (·.id)).Nodup := by
  rw [finalizes_ids h]
  exact (((List.perm_insertionSort _ _).map _).nodup_iff).mpr h.distinct

/-- The row a finalized run leaves, with the validation behind it. -/
structure Settles (nfc : Text → Text) (context : CompletionContext) (facts : RunCompletionFacts)
    (settled : RunState) : Prop where
  owned : facts.run.commandId = context.command.id ∧ facts.run.attempt = context.command.attempt ∧
    facts.run.status = .running
  finalized : ∃ outcome publication observedAt retryAfterAt,
    verifyOutcome nfc facts outcome = .ok publication ∧
      settled = finalizedRun facts.run outcome observedAt retryAfterAt context.dbNow
  finished : RunStatus.Finished settled.status

theorem settledRun_finalizes (h : Finalizes nfc context plan results) {facts : RunCompletionFacts}
    (hfacts : facts ∈ context.runs) :
    settledRun plan.runs facts.run ∈ plan.runs ∧
      Settles nfc context facts (settledRun plan.runs facts.run) := by
  obtain ⟨result, hresult, outcome, _, hprepare⟩ :=
    forall₂_mem_left h.each facts (mem_byRunId.mpr hfacts)
  obtain ⟨howned, hverify, observedAt, retryAfterAt, _, _, hrun⟩ := prepareRun_eq_ok.mp hprepare
  have hmem : result.1 ∈ plan.runs := by
    rw [h.runs]
    exact List.mem_map_of_mem hresult
  have hid : result.1.id = facts.run.id := by rw [hrun]; rfl
  have hsettled : settledRun plan.runs facts.run = result.1 := by
    rw [settledRun_of_mem (finalizes_distinct h) hmem hid, hrun]
    rfl
  rw [hsettled]
  refine ⟨hmem, howned, ⟨outcome, result.2, observedAt, retryAfterAt, hverify, hrun⟩, ?_⟩
  rw [hrun]
  exact verifyOutcome_finished hverify

theorem settledRun_outside (h : Finalizes nfc context plan results) {r : RunState}
    (hr : ∀ facts ∈ context.runs, facts.run.id ≠ r.id) : settledRun plan.runs r = r := by
  refine settledRun_of_absent fun s hs heq => ?_
  have hid : s.id ∈ plan.runs.map (·.id) := List.mem_map_of_mem hs
  rw [finalizes_ids h] at hid
  obtain ⟨facts, hfacts, hrun⟩ := List.mem_map.mp hid
  exact hr facts (mem_byRunId.mp hfacts) (hrun.trans heq)

theorem verifyOutcome_publication {facts : RunCompletionFacts} {outcome : CompletionSourceOutcome}
    {publication : Option PublicationDraft}
    (h : verifyOutcome nfc facts outcome = .ok publication) :
    (outcome.terminalStatus = .succeeded → ∃ draft, publication = some draft ∧
      draft.runId = facts.run.id ∧ draft.sourceId = facts.run.sourceId) ∧
    (outcome.terminalStatus ≠ .succeeded → publication = none) := by
  unfold verifyOutcome at h
  cases hstatus : outcome.terminalStatus <;> simp only [hstatus] at h
  case succeeded =>
    obtain ⟨_, h⟩ := require_bind.mp h
    obtain ⟨_, _, h⟩ := bind_eq_ok.mp h
    obtain ⟨draft, hdraft, h⟩ := bind_eq_ok.mp h
    obtain rfl := Except.ok.inj h
    obtain ⟨_, _, hdraft⟩ := bind_eq_ok.mp hdraft
    obtain ⟨_, _, hdraft⟩ := bind_eq_ok.mp hdraft
    obtain ⟨_, hdraft⟩ := require_bind.mp hdraft
    obtain rfl := Except.ok.inj hdraft
    exact ⟨fun _ => ⟨_, rfl, rfl, rfl⟩, fun hne => absurd rfl hne⟩
  case skippedPolicy | skippedQuota | failedRetryable | failedTerminal =>
    obtain ⟨_, _, h⟩ := bind_eq_ok.mp h
    obtain ⟨_, _, h⟩ := bind_eq_ok.mp h
    obtain rfl := Except.ok.inj h
    exact ⟨fun heq => RunStatus.noConfusion heq, fun _ => rfl⟩
  all_goals cases h

theorem finalizes_publications (h : Finalizes nfc context plan results) :
    plan.publications.map (fun d => (d.runId, d.sourceId)) =
      (plan.runs.filter (fun s => s.status = .succeeded)).map (fun s => (s.id, s.sourceId)) := by
  have hpairs {runs : List RunCompletionFacts} {rs : List (RunState × Option PublicationDraft)}
      (heach : List.Forall₂ (FinalizedAs nfc context) runs rs) :
      (rs.filterMap Prod.snd).map (fun d => (d.runId, d.sourceId)) =
        ((rs.map Prod.fst).filter (fun s => s.status = .succeeded)).map
          (fun s => (s.id, s.sourceId)) := by
    induction heach with
    | nil => rfl
    | @cons facts result _ _ hr _ ih =>
      obtain ⟨outcome, _, hprepare⟩ := hr
      obtain ⟨_, hverify, observedAt, retryAfterAt, _, _, hrun⟩ := prepareRun_eq_ok.mp hprepare
      obtain ⟨run, publication⟩ := result
      obtain rfl : run = _ := hrun
      obtain ⟨hsome, hnone⟩ := verifyOutcome_publication hverify
      rw [List.map_cons, List.filter_cons]
      by_cases hstatus : outcome.terminalStatus = .succeeded
      · obtain ⟨draft, hdraft, hrunId, hsourceId⟩ := hsome hstatus
        obtain rfl : publication = some draft := hdraft
        have hfilter : decide ((finalizedRun facts.run outcome observedAt retryAfterAt
            context.dbNow).status = .succeeded) = true := decide_eq_true hstatus
        rw [@List.filterMap_cons_some _ _ Prod.snd _ _ draft rfl, if_pos hfilter, List.map_cons,
          List.map_cons, ih, hrunId, hsourceId]
        rfl
      · obtain rfl : publication = none := hnone hstatus
        have hfilter : ¬decide ((finalizedRun facts.run outcome observedAt retryAfterAt
            context.dbNow).status = .succeeded) = true :=
          fun h => hstatus (of_decide_eq_true h)
        rw [@List.filterMap_cons_none _ _ Prod.snd _ _ rfl, if_neg hfilter, ih]
  rw [h.runs, h.publications]
  exact hpairs h.each

end Plans

section Persisted

/-- The tables and the command row of a persisted plan. -/
structure Persisted (db : Database) (context : CompletionContext) (plan : CompletionPlan)
    (key : Bytes) (next : Database) (command : CommandState) : Prop where
  completed : completedCommand context.command plan key = .ok command
  runs : next.runs.rows = db.runs.rows.map (settledRun plan.runs)
  checkpoints : Current db context.runs → ∀ k, next.checkpoints.find? k =
    (db.checkpoints.find? k).map (fun c =>
      { c with lastCompletedRunId := lastCompleted context.runs k plan.runs c.lastCompletedRunId })
  manifests : ∃ added, next.manifests.rows = db.manifests.rows ++ added ∧
    added.map (·.draft) = plan.publications ∧ ∀ m ∈ added, m.committedAt = plan.completedAt
  numbered : Numbered db → Numbered next
  commands : next.commands = (db.setCommand command).commands
  frame : ∃ sequences manifests runs checkpoints, next = ({ db with
    sequences := sequences
    manifests := manifests
    runs := runs
    checkpoints := checkpoints } : Database).setCommand command

theorem persistCompletionPlan_persisted {db : Database} {context : CompletionContext}
    {plan : CompletionPlan} {key : Bytes}
    {persisted : Database × List CompletionPublicationResponse}
    (h : persistCompletionPlan db context plan key = .ok persisted) :
    ∃ command, Persisted db context plan key persisted.1 command := by
  obtain ⟨published, hpublished, h⟩ := bind_eq_ok.mp h
  obtain ⟨_, h⟩ := require_bind.mp h
  obtain ⟨command, hcommand, h⟩ := bind_eq_ok.mp h
  obtain rfl := Except.ok.inj h
  obtain ⟨sequences, manifests, hframe⟩ := persistPublications_frame hpublished
  obtain ⟨runs, checkpoints, hruns⟩ := persistRuns_frame context.runs published.1 plan.runs
  obtain ⟨added, hadded, hdrafts, hstamp⟩ := persistPublications_rows hpublished
  refine ⟨command, hcommand, ?_, fun hcurrent k => ?_, ⟨added, ?_, hdrafts, hstamp⟩,
    fun hnumbered => ?_, ?_, sequences, manifests, runs, checkpoints, ?_⟩
  · have hrows := persistRuns_rows context.runs published.1 plan.runs
    rw [show published.1.runs = db.runs by rw [hframe]] at hrows
    exact hrows
  · have hsame : published.1.checkpoints = db.checkpoints := by rw [hframe]
    have hfind := @persistRuns_checkpoints context.runs published.1
      (by rw [Current, hsame]; exact hcurrent) plan.runs k
    rw [hsame] at hfind
    exact hfind
  · rw [hruns]
    exact hadded
  · have hnext := numbered_persistPublications hnumbered hpublished
    rw [hruns]
    exact hnext
  · rw [hruns, hframe]
    rfl
  · rw [hruns, hframe]

theorem completedCommand_fields {s t : CommandState} {plan : CompletionPlan} {key : Bytes}
    (h : completedCommand s plan key = .ok t) :
    SameIdentity s t ∧ t.status = plan.commandStatus ∧ t.attempt = s.attempt := by
  unfold completedCommand withRetryAvailability at h
  cases hstatus : plan.commandStatus <;> simp only [hstatus] at h
  case failedRetryable =>
    obtain ⟨availableAt, _, h⟩ := bind_eq_ok.mp h
    obtain rfl := Except.ok.inj h
    exact ⟨⟨rfl, rfl, rfl, rfl⟩, rfl, rfl⟩
  case succeeded | partialSuccess | skipped | failedTerminal =>
    obtain rfl := Except.ok.inj h
    exact ⟨⟨rfl, rfl, rfl, rfl⟩, rfl, rfl⟩
  all_goals cases h

theorem completionFacts_eq_ok {db : Database} {now : Instant} {allow : Bool} {r : RunState}
    {facts : RunCompletionFacts} : completionFacts db now allow r = .ok facts ↔
      requireCompletionAuthorization db r now allow = .ok () ∧ ∃ checkpoint proof,
        db.checkpoints.find? (r.sourceId, r.scopeVersion) = some checkpoint ∧
        skipProof db r = .ok proof ∧
        facts = ⟨r, checkpoint, db.commitsOf r.id, db.observedOf r.id, proof⟩ := by
  rw [completionFacts, bind_eq_ok]
  simp only [bind_eq_ok, present_eq_ok, pure, Except.pure, Except.ok.injEq,
    eq_comm (b := facts), exists_and_left]
  constructor
  · rintro ⟨_, hauth, hrest⟩
    exact ⟨hauth, hrest⟩
  · rintro ⟨hauth, hrest⟩
    exact ⟨⟨⟩, hauth, hrest⟩

/-- A locked context: the runs of one attempt with the rows they were read from. -/
structure Locked (db : Database) (commandId : UUID) (attempt : ℕ) (now : Instant) (allow : Bool)
    (context : CompletionContext) (row : CommandRow) : Prop where
  located : db.commands.find? commandId = some row
  command : context.command = row.state
  dbNow : context.dbNow = now
  facts : List.Forall₂ (fun r f => completionFacts db now allow r = .ok f)
    (db.runsOf commandId attempt) context.runs

theorem loadLockedCompletionContext_locked {db : Database} {commandId : UUID} {attempt : ℕ}
    {now : Instant} {allow : Bool} {context : CompletionContext} :
    loadLockedCompletionContext db commandId attempt now allow = .ok context ↔
      ∃ row, Locked db commandId attempt now allow context row := by
  rw [loadLockedCompletionContext_eq_ok]
  constructor
  · rintro ⟨row, facts, hrow, hfacts, rfl⟩
    exact ⟨row, hrow, rfl, rfl, hfacts⟩
  · rintro ⟨row, h⟩
    obtain ⟨command, runs, dbNow⟩ := context
    obtain rfl : command = row.state := h.command
    obtain rfl : dbNow = now := h.dbNow
    exact ⟨row, runs, h.located, h.facts, rfl⟩

variable {db : Database} {commandId : UUID} {attempt : ℕ} {now : Instant} {allow : Bool}
  {context : CompletionContext} {row : CommandRow}

theorem locked_current (h : Locked db commandId attempt now allow context row) :
    Current db context.runs := by
  intro f hf c hc
  obtain ⟨r, _, hfacts⟩ := forall₂_mem_right h.facts f hf
  obtain ⟨_, checkpoint, proof, hfind, _, rfl⟩ := completionFacts_eq_ok.mp hfacts
  have hkey : CheckpointState.key checkpoint = (r.sourceId, r.scopeVersion) :=
    (Table.find?_eq_some.mp hfind).2
  rw [hkey, hfind] at hc
  obtain rfl := Option.some.inj hc
  rfl

theorem locked_mem (h : Locked db commandId attempt now allow context row) {r : RunState} :
    (∃ f ∈ context.runs, f.run = r) ↔ r ∈ db.runs ∧ r.commandId = commandId ∧ r.attempt = attempt := by
  rw [← mem_runsOf]
  constructor
  · rintro ⟨f, hf, rfl⟩
    obtain ⟨r, hr, hfacts⟩ := forall₂_mem_right h.facts f hf
    obtain ⟨_, _, _, _, _, rfl⟩ := completionFacts_eq_ok.mp hfacts
    exact hr
  · intro hr
    obtain ⟨f, hf, hfacts⟩ := forall₂_mem_left h.facts r hr
    obtain ⟨_, _, _, _, _, rfl⟩ := completionFacts_eq_ok.mp hfacts
    exact ⟨_, hf, rfl⟩

end Persisted

end PredictionMarketMonitor.PlanEffects
