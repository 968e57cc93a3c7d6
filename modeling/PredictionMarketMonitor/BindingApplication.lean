import PredictionMarketMonitor.ActivationCommands
import PredictionMarketMonitor.CrashTriples
import PredictionMarketMonitor.PythonText

set_option autoImplicit false

/-!
# Applying a source binding

`_apply` of `scripts/source_bindings_mutations.py` and
`BindingStateMachine.apply_github` of `scripts/source_bindings.py`, with the writes to
the GitHub environment and to the journal one by one. The secret cannot be read back.
-/
namespace PredictionMarketMonitor.BindingApplication

open ActivationCommands ActivationPlans CanonicalJson CollectionBase CrashTriples Sha256

inductive Variable
  | monitorSourceIds | monitorScopeVersion | monitorDeploymentActivationAt
deriving DecidableEq

/-- The environment `production-collector`: `MONITOR_SOURCE_BINDINGS_JSON` and variables. -/
structure GitHubEnvironment where
  secret : Option Text
  vars : Variable → Option Text

/-- What outlives a crash: the environment and the journal of the binding. -/
structure Durable (J : Type) where
  github : GitHubEnvironment
  journal : J

section GitHub
variable {J : Type} (missing : Except MutationError Text)

/-- `gh variable get`, stripped; `missing` is what it does when there is no such variable. -/
def getVariable (github : GitHubEnvironment) (name : Variable) : Except MutationError Text :=
  match github.vars name with
  | some value => .ok (PythonText.strip value)
  | none => missing.map PythonText.strip

def setSecret (value : Text) : Process (Durable J) MutationError Unit :=
  .write fun w => { w with github := { w.github with secret := some value } }

def GitHubEnvironment.withVariable (github : GitHubEnvironment) (name : Variable) (value : Text) :
    GitHubEnvironment :=
  { github with vars := Function.update github.vars name (some value) }

def setVariable (name : Variable) (value : Text) : Process (Durable J) MutationError Unit :=
  .write fun w => { w with github := w.github.withVariable name value }

/-- `recovered` in `_apply`: the scope is read first, the source ids only if it matches. -/
def recovered (github : GitHubEnvironment) (payload : BindingPayload) :
    Except MutationError Bool := do
  let scope ← getVariable missing github .monitorScopeVersion
  if scope = payload.scopeVersion then
    let ids ← getVariable missing github .monitorSourceIds
    return ids = payload.sourceIds
  else return false

/-- `_live_binding_matches` reads both. -/
def liveBindingMatches (github : GitHubEnvironment) (payload : BindingPayload) :
    Except MutationError Bool := do
  let sourceIds ← getVariable missing github .monitorSourceIds
  let scope ← getVariable missing github .monitorScopeVersion
  return sourceIds = payload.sourceIds ∧ scope = payload.scopeVersion

/-- The transitions of one activation in the order of their times; a new one never has
    the predecessor and the state of an old one, so its row is always inserted. -/
abbrev Transitions := List ActivationTransition

def appendTransition (state : ActivationTransition) :
    Process (Durable Transitions) MutationError Unit :=
  .write fun w => { w with journal := w.journal ++ [state] }

def applyPredecessors : List (Option ActivationTransition) :=
  [some .prepared, some .bindingWriting, some .bindingCommitted]

def writeBinding (payload : BindingPayload) : Process (Durable J) MutationError Unit := do
  setSecret payload.protectedJson
  setVariable .monitorSourceIds payload.sourceIds
  setVariable .monitorScopeVersion payload.scopeVersion

/-- `apply-github`: `latest_state` is read, then `_apply` runs. -/
def apply (payload : BindingPayload) :
    Process (Durable Transitions) MutationError (ActivationTransition × Bool) := do
  .read fun w => FallibleSteps.require (w.journal.getLast? ∈ applyPredecessors) .cli
  appendTransition .bindingWriting
  let recovered ← .read fun w => recovered missing w.github payload
  .skipIf recovered (writeBinding payload)
  appendTransition .bindingCommitted
  return (.bindingCommitted, recovered)

structure BindingIntent where
  activationNonce : UUID
  payload : BindingPayload
  payloadSha256 : Digest

structure BindingReceipt where
  activationNonce : UUID
  payloadSha256 : Digest
  state : ActivationTransition
  recoveredAfterLostReceipt : Bool
deriving DecidableEq

structure IntentJournal where
  active : Option (UUID × Digest)
  transitions : List ActivationTransition

def BindingIntent.identity (intent : BindingIntent) : UUID × Digest :=
  (intent.activationNonce, intent.payloadSha256)

def IntentJournal.Free (journal : IntentJournal) (intent : BindingIntent) : Prop :=
  ∀ active ∈ journal.active, active = intent.identity

instance (journal : IntentJournal) (intent : BindingIntent) : Decidable (journal.Free intent) :=
  inferInstanceAs (Decidable (∀ active ∈ journal.active, active = intent.identity))

def serialized (intent : BindingIntent) : Process (Durable IntentJournal) MutationError Unit := do
  .read fun w => FallibleSteps.require (w.journal.Free intent) .bindingConflict
  .write fun w => { w with journal := { w.journal with active := some intent.identity } }

def IntentJournal.append (journal : IntentJournal) (state : ActivationTransition) : IntentJournal :=
  { journal with transitions := journal.transitions ++ [state] }

def IntentJournal.Begun (journal : IntentJournal) : Prop :=
  journal.transitions.getLast? ∈ [some .bindingWriting, some .bindingCommitted]

instance (journal : IntentJournal) : Decidable journal.Begun :=
  inferInstanceAs (Decidable (_ ∈ _))

def append (state : ActivationTransition) : Process (Durable IntentJournal) MutationError Unit :=
  .write fun w => { w with journal := w.journal.append state }

/-- `begin_write`: whether this is the first write. -/
def beginWrite : Process (Durable IntentJournal) MutationError Bool := do
  let begun ← .read fun w => .ok (decide w.journal.Begun)
  if begun = true then return false
  else
    append .bindingWriting
    return true

def BindingIntent.receipt (intent : BindingIntent) (recovered : Bool) : BindingReceipt :=
  ⟨intent.activationNonce, intent.payloadSha256, .bindingCommitted, recovered⟩

/-- The recovery of `apply_github`: only the commit may have to be recorded. -/
def recoverGithub (intent : BindingIntent) :
    Process (Durable IntentJournal) MutationError BindingReceipt := do
  let committed ← .read fun w => .ok (decide (w.journal.transitions.getLast? = some .bindingCommitted))
  .skipIf committed (append .bindingCommitted)
  return intent.receipt true

def writeGithub (intent : BindingIntent) :
    Process (Durable IntentJournal) MutationError BindingReceipt := do
  writeBinding intent.payload
  append .bindingCommitted
  return intent.receipt false

def applyGithub (intent : BindingIntent) :
    Process (Durable IntentJournal) MutationError BindingReceipt := do
  serialized intent
  let firstWrite ← beginWrite
  let recovered ← .read fun w =>
    if firstWrite = true then .ok false else liveBindingMatches missing w.github intent.payload
  if recovered = true then recoverGithub intent else writeGithub intent

end GitHub

/-- The secret and both variables equal the payload. -/
structure Bound (payload : BindingPayload) (github : GitHubEnvironment) : Prop where
  secret : github.secret = some payload.protectedJson
  sourceIds : github.vars .monitorSourceIds = some payload.sourceIds
  scopeVersion : github.vars .monitorScopeVersion = some payload.scopeVersion

/-- Whatever crashes came before, the binding is recorded as committed only where it is
    bound, and running the step once more to its end binds it. -/
structure SurvivesCrashes {J α : Type} (step : Process (Durable J) MutationError α)
    (transitions : J → Transitions) (payload : BindingPayload) (start : Durable J) : Prop where
  committed : ∀ w, Restarted step start w → transitions start.journal <+: transitions w.journal ∧
    (.bindingCommitted ∈ (transitions w.journal).drop (transitions start.journal).length →
      Bound payload w.github)
  completes : ∀ w, Restarted step start w →
    ∃ receipt, (step w).result = .ok receipt ∧ Bound payload (step w).last.github

abbrev Comparison := GitHubEnvironment → BindingPayload → Except MutationError Bool

/-- The comparison of the variables with the payload tells something about the secret: it
    has an answer, and where it says yes, at first or with the source ids written, what
    was not written yet is equal too. -/
structure Inferable (compare : Comparison) (payload : BindingPayload)
    (github : GitHubEnvironment) : Prop where
  answers : ∃ answer, compare github payload = .ok answer
  first : compare github payload = .ok true → Bound payload github
  resumed : compare (github.withVariable .monitorSourceIds payload.sourceIds) payload = .ok true →
    github.vars .monitorScopeVersion = some payload.scopeVersion

structure ReadsVariables (compare : Comparison) (payload : BindingPayload) : Prop where
  secret : ∀ github value, compare { github with secret := value } payload = compare github payload
  answers : ∀ github answer, compare github payload = .ok answer →
    ∃ answer, compare (github.withVariable .monitorSourceIds payload.sourceIds) payload = .ok answer
  bound : ∀ github, Bound payload github → ∃ answer, compare github payload = .ok answer

section Readings
variable (missing : Except MutationError Text) (payload : BindingPayload)

theorem getVariable_some {github : GitHubEnvironment} {name : Variable} {value : Text}
    (h : github.vars name = some value) :
    getVariable missing github name = .ok (PythonText.strip value) := by
  simp [getVariable, h]

theorem withVariable_same (github : GitHubEnvironment) (name : Variable) (value : Text) :
    (github.withVariable name value).vars name = some value := by
  simp [GitHubEnvironment.withVariable]

theorem withVariable_ne (github : GitHubEnvironment) {name other : Variable} (value : Text)
    (h : other ≠ name) : (github.withVariable name value).vars other = github.vars other := by
  simp [GitHubEnvironment.withVariable, h]

theorem withVariable_twice (github : GitHubEnvironment) (name : Variable) (value : Text) :
    (github.withVariable name value).withVariable name value = github.withVariable name value := by
  simp [GitHubEnvironment.withVariable]

theorem getVariable_other (github : GitHubEnvironment) {name other : Variable} (value : Text)
    (h : other ≠ name) :
    getVariable missing (github.withVariable name value) other = getVariable missing github other := by
  simp only [getVariable, withVariable_ne github value h]

theorem recovered_reads : ReadsVariables (recovered missing) payload where
  secret github value := rfl
  answers github answer h := by
    have hscope := getVariable_other missing github payload.sourceIds
      (show Variable.monitorScopeVersion ≠ .monitorSourceIds by decide)
    have hids := getVariable_some missing
      (withVariable_same github .monitorSourceIds payload.sourceIds)
    obtain ⟨scope, hs, -⟩ := FallibleSteps.bind_eq_ok.mp h
    by_cases hm : scope = payload.scopeVersion
    · exact ⟨_, by rw [recovered, hscope, hs, FallibleSteps.ok_bind, if_pos hm, hids]; rfl⟩
    · exact ⟨_, by rw [recovered, hscope, hs, FallibleSteps.ok_bind, if_neg hm]; rfl⟩
  bound github h := by
    by_cases hm : PythonText.strip payload.scopeVersion = payload.scopeVersion
    · exact ⟨_, by rw [recovered, getVariable_some missing h.scopeVersion, FallibleSteps.ok_bind,
        if_pos hm, getVariable_some missing h.sourceIds]; rfl⟩
    · exact ⟨_, by rw [recovered, getVariable_some missing h.scopeVersion, FallibleSteps.ok_bind,
        if_neg hm]; rfl⟩

theorem liveBindingMatches_reads : ReadsVariables (liveBindingMatches missing) payload where
  secret github value := rfl
  answers github answer h := by
    have hscope := getVariable_other missing github payload.sourceIds
      (show Variable.monitorScopeVersion ≠ .monitorSourceIds by decide)
    have hids := getVariable_some missing
      (withVariable_same github .monitorSourceIds payload.sourceIds)
    obtain ⟨ids, -, h⟩ := FallibleSteps.bind_eq_ok.mp h
    obtain ⟨scope, hs, -⟩ := FallibleSteps.bind_eq_ok.mp h
    exact ⟨_, by rw [liveBindingMatches, hids, FallibleSteps.ok_bind, hscope, hs]; rfl⟩
  bound github h := ⟨_, by
    rw [liveBindingMatches, getVariable_some missing h.sourceIds, FallibleSteps.ok_bind,
      getVariable_some missing h.scopeVersion]
    rfl⟩

end Readings

section Writes
variable {J : Type} {compare : Comparison} {payload : BindingPayload}

theorem Bound.setSecret {github : GitHubEnvironment} (h : Bound payload github) :
    Bound payload { github with secret := some payload.protectedJson } :=
  ⟨rfl, h.sourceIds, h.scopeVersion⟩

theorem Bound.setSourceIds {github : GitHubEnvironment} (h : Bound payload github) :
    Bound payload (github.withVariable .monitorSourceIds payload.sourceIds) :=
  ⟨h.secret, withVariable_same _ _ _,
    (withVariable_ne github payload.sourceIds (by decide)).trans h.scopeVersion⟩

theorem Inferable.bound (hc : ReadsVariables compare payload) {github : GitHubEnvironment}
    (h : Bound payload github) : Inferable compare payload github :=
  ⟨hc.bound github h, fun _ => h, fun _ => h.scopeVersion⟩

theorem Inferable.setSecret (hc : ReadsVariables compare payload) {github : GitHubEnvironment}
    (h : Inferable compare payload github) :
    Inferable compare payload { github with secret := some payload.protectedJson } where
  answers := by
    rw [hc.secret]
    exact h.answers
  first hm := by
    rw [hc.secret] at hm
    exact (h.first hm).setSecret
  resumed hm := h.resumed ((hc.secret _ _).symm.trans hm)

theorem Inferable.setSourceIds (hc : ReadsVariables compare payload) {github : GitHubEnvironment}
    (h : Inferable compare payload github) (hs : github.secret = some payload.protectedJson) :
    Inferable compare payload (github.withVariable .monitorSourceIds payload.sourceIds) where
  answers := by
    obtain ⟨answer, ha⟩ := h.answers
    exact hc.answers github answer ha
  first hm := ⟨hs, withVariable_same _ _ _,
    (withVariable_ne github payload.sourceIds (by decide)).trans (h.resumed hm)⟩
  resumed hm := by
    rw [withVariable_twice] at hm
    exact (withVariable_ne github payload.sourceIds (by decide)).trans (h.resumed hm)

/-- What every state reached by an apply step satisfies: `sound` is what the step asks of
    the journal, `committed` says that this application was recorded as committed. -/
structure Recoverable (compare : Comparison) (payload : BindingPayload) (sound committed : J → Prop)
    (w : Durable J) : Prop where
  inferable : Inferable compare payload w.github
  sound : sound w.journal
  bound : committed w.journal → Bound payload w.github

variable {sound committed : J → Prop}

theorem writeBinding_triple (hc : ReadsVariables compare payload) :
    Triple (Recoverable compare payload sound committed) (writeBinding payload)
      (fun _ w => Recoverable compare payload sound committed w ∧ Bound payload w.github)
      (Recoverable compare payload sound committed) := by
  let stored := fun (_ : Unit) (w : Durable J) => Recoverable compare payload sound committed w ∧
    w.github.secret = some payload.protectedJson
  let listed := fun (_ : Unit) (w : Durable J) => stored () w ∧
    w.github.vars .monitorSourceIds = some payload.sourceIds
  refine Triple.seq (R := stored) (.write (fun _ h => h) (fun w h => ?_) (fun _ h => h.1))
    fun _ => Triple.seq (R := listed) (.write (fun _ h => h.1) (fun w h => ?_) (fun _ h => h.1.1))
      fun _ => .write (fun _ h => h.1.1) (fun w h => ?_) (fun _ h => h.1)
  · exact ⟨⟨h.inferable.setSecret hc, h.sound, fun hj => (h.bound hj).setSecret⟩, rfl⟩
  · exact ⟨⟨⟨h.1.inferable.setSourceIds hc h.2, h.1.sound, fun hj => (h.1.bound hj).setSourceIds⟩,
      h.2⟩, withVariable_same _ _ _⟩
  · have hbound : Bound payload (w.github.withVariable .monitorScopeVersion payload.scopeVersion) :=
      ⟨h.1.2, (withVariable_ne w.github payload.scopeVersion (by decide)).trans h.2,
        withVariable_same _ _ _⟩
    exact ⟨⟨.bound hc hbound, h.1.1.sound, fun _ => hbound⟩, hbound⟩

end Writes

section Apply
variable (missing : Except MutationError Text) (payload : BindingPayload) (start : Transitions)

def CommittedSince (transitions : Transitions) : Prop :=
  .bindingCommitted ∈ transitions.drop start.length

def Resumable (transitions : Transitions) : Prop :=
  start <+: transitions ∧ transitions.getLast? ∈ applyPredecessors

variable {start}

theorem drop_append_of_prefix {transitions : Transitions} (h : start <+: transitions)
    (more : Transitions) :
    (transitions ++ more).drop start.length = transitions.drop start.length ++ more :=
  List.drop_append_of_le_length h.length_le

theorem committedSince_append {transitions : Transitions} (h : start <+: transitions)
    {state : ActivationTransition} (hs : state ≠ .bindingCommitted) :
    CommittedSince start (transitions ++ [state]) ↔ CommittedSince start transitions := by
  simp [CommittedSince, drop_append_of_prefix h, hs.symm]

theorem bindingWriting_ne : ActivationTransition.bindingWriting ≠ .bindingCommitted := by
  decide

theorem Resumable.append {transitions : Transitions} (h : Resumable start transitions)
    {state : ActivationTransition} (hs : some state ∈ applyPredecessors) :
    Resumable start (transitions ++ [state]) :=
  ⟨h.1.trans (List.prefix_append _ _), by simpa using hs⟩

theorem apply_triple :
    Triple (Recoverable (recovered missing) payload (Resumable start) (CommittedSince start))
      (apply missing payload) (fun _ w => Bound payload w.github)
      (Recoverable (recovered missing) payload (Resumable start) (CommittedSince start)) := by
  have hc := recovered_reads missing payload
  refine .read (fun _ h => h) (fun w h => ⟨_, FallibleSteps.require_of h.sound.2⟩) fun _ => ?_
  refine Triple.seq
    (R := fun _ => Recoverable (recovered missing) payload (Resumable start) (CommittedSince start))
    (.write (fun _ h => h.1) (fun w h => ?_) (fun _ h => h)) fun _ => ?_
  · have hb := committedSince_append h.1.sound.1 bindingWriting_ne
    exact ⟨h.1.inferable, h.1.sound.append (by decide), fun hj => h.1.bound (hb.mp hj)⟩
  · refine .read (fun _ h => h) (fun w h => h.inferable.answers) fun answer => ?_
    refine Triple.seq
      (R := fun _ w => Recoverable (recovered missing) payload (Resumable start)
        (CommittedSince start) w ∧ Bound payload w.github)
      (.skipIf (fun _ h => h.1) (fun ha w h => ⟨h.1, h.1.inferable.first (ha ▸ h.2)⟩)
        fun _ => (writeBinding_triple hc).strengthen fun w h => h.1) fun _ => ?_
    refine Triple.seq
      (R := fun _ w => Recoverable (recovered missing) payload (Resumable start)
        (CommittedSince start) w ∧ Bound payload w.github)
      (.write (fun _ h => h.1) (fun w h => ?_) (fun _ h => h.1))
      fun _ => .ret (fun w h => h.1) (fun w h => h.2)
    exact ⟨⟨h.1.inferable, h.1.sound.append (by decide), fun _ => h.2⟩, h.2⟩

end Apply

section ApplyGithub
variable (missing : Except MutationError Text) (intent : BindingIntent) (start : IntentJournal)

def Held (journal : IntentJournal) : Prop :=
  start.transitions <+: journal.transitions ∧ journal.Free intent

variable {intent} {start}

theorem Held.append {journal : IntentJournal} (h : Held intent start journal)
    (state : ActivationTransition) : Held intent start (journal.append state) :=
  ⟨h.1.trans (List.prefix_append _ _), h.2⟩

theorem free_active (journal : IntentJournal) :
    ({ journal with active := some intent.identity } : IntentJournal).Free intent := by
  intro active h
  exact (Option.mem_some.mp h).symm

variable (intent) (start)

abbrev Underway (w : Durable IntentJournal) : Prop :=
  Recoverable (liveBindingMatches missing) intent.payload (Held intent start)
    (fun journal => CommittedSince start.transitions journal.transitions) w

variable {intent} {start}

theorem commit_triple : Triple
    (fun w => Underway missing intent start w ∧ Bound intent.payload w.github)
    (append .bindingCommitted)
    (fun _ w => Underway missing intent start w ∧ Bound intent.payload w.github)
    (Underway missing intent start) :=
  .write (fun _ h => h.1)
    (fun _ h => ⟨⟨h.1.inferable, h.1.sound.append _, fun _ => h.2⟩, h.2⟩) (fun _ h => h.1)

theorem serialized_triple : Triple (Underway missing intent start) (serialized intent)
    (fun _ => Underway missing intent start) (Underway missing intent start) := by
  refine .read (fun _ h => h) (fun w h => ⟨_, FallibleSteps.require_of h.sound.2⟩) fun _ => ?_
  exact .write (fun _ h => h.1)
    (fun w h => ⟨h.1.inferable, ⟨h.1.sound.1, free_active _⟩, h.1.bound⟩) (fun _ h => h)

theorem beginWrite_triple : Triple (Underway missing intent start) beginWrite
    (fun _ => Underway missing intent start) (Underway missing intent start) := by
  refine .read (fun _ h => h) (fun w _ => ⟨_, rfl⟩) fun begun => ?_
  cases begun with
  | true => exact .ret (fun _ h => h.1) (fun _ h => h.1)
  | false =>
    refine Triple.seq (R := fun _ => Underway missing intent start)
      (.write (fun _ h => h.1) (fun w h => ?_) (fun _ h => h))
      fun _ => .ret (fun _ h => h) (fun _ h => h)
    have hb := committedSince_append h.1.sound.1 bindingWriting_ne
    exact ⟨h.1.inferable, h.1.sound.append _, fun hj => h.1.bound (hb.mp hj)⟩

theorem applyGithub_triple :
    Triple (Underway missing intent start) (applyGithub missing intent)
      (fun _ w => Bound intent.payload w.github) (Underway missing intent start) := by
  have hc := liveBindingMatches_reads missing intent.payload
  refine (serialized_triple missing).seq fun _ => (beginWrite_triple missing).seq fun first => ?_
  refine .read (fun _ h => h) (fun w h => ?_) fun answer => ?_
  · cases first with
    | true => exact ⟨false, rfl⟩
    | false => exact h.inferable.answers
  · cases answer with
    | false =>
      refine Triple.seq ((writeBinding_triple hc).strengthen fun w h => h.1) fun _ => ?_
      exact (commit_triple missing).seq fun _ => .ret (fun _ h => h.1) (fun _ h => h.2)
    | true =>
      have hbound : ∀ w, Underway missing intent start w ∧
          (if first = true then .ok false
            else liveBindingMatches missing w.github intent.payload) = .ok true →
          Bound intent.payload w.github := by
        intro w h
        cases first with
        | true => simp at h
        | false => exact h.1.inferable.first h.2
      refine .read (fun _ h => h.1) (fun w _ => ⟨_, rfl⟩) fun committed => ?_
      refine Triple.seq
        (R := fun _ w => Underway missing intent start w ∧ Bound intent.payload w.github) ?_
        fun _ => .ret (fun _ h => h.1) (fun _ h => h.2)
      exact .skipIf (fun _ h => h.1.1) (fun _ w h => ⟨h.1.1, hbound w h.1⟩)
        fun _ => (commit_triple missing).strengthen fun w h => ⟨h.1.1, hbound w h.1⟩

end ApplyGithub

section Necessity
variable {J α : Type} {compare : Comparison} {payload : BindingPayload}
  {step : Process (Durable J) MutationError α} {resuming : Durable J → Prop}

def halfWritten (payload : BindingPayload) (github : GitHubEnvironment) : GitHubEnvironment :=
  { github with secret := some payload.protectedJson }.withVariable .monitorSourceIds
    payload.sourceIds

/-- How a step that resumes uses its comparison: it fails with it, it writes nothing when
    the answer is yes, and otherwise it writes the secret and the source ids first. -/
structure Compares (step : Process (Durable J) MutationError α) (compare : Comparison)
    (payload : BindingPayload) (resuming : Durable J → Prop) : Prop where
  fails : ∀ w, resuming w → ∀ e, compare w.github payload = .error e →
    ∀ a, (step w).result ≠ .ok a
  keeps : ∀ w, resuming w → compare w.github payload = .ok true →
    (step w).last.github = w.github
  writes : ∀ w, resuming w → compare w.github payload = .ok false →
    ∃ t ∈ (step w).passed, resuming t ∧ t.github = halfWritten payload w.github

theorem Compares.inferable (hs : Compares step compare payload resuming)
    (hc : ReadsVariables compare payload) {w : Durable J} (hw : resuming w)
    (h : ∀ t, Restarted step w t →
      ∃ receipt, (step t).result = .ok receipt ∧ Bound payload (step t).last.github) :
    Inferable compare payload w.github := by
  have hbound : ∀ t, Restarted step w t → resuming t → compare t.github payload = .ok true →
      Bound payload t.github := by
    intro t ht hr hm
    obtain ⟨_, -, hb⟩ := h t ht
    rwa [hs.keeps t hr hm] at hb
  have hfirst := hbound w .refl hw
  have hanswers : ∃ answer, compare w.github payload = .ok answer := by
    cases ha : compare w.github payload with
    | ok answer => exact ⟨answer, rfl⟩
    | error e =>
      obtain ⟨receipt, hr, -⟩ := h w .refl
      exact absurd hr (hs.fails w hw e ha receipt)
  refine ⟨hanswers, hfirst, fun hm => ?_⟩
  obtain ⟨answer, ha⟩ := hanswers
  cases answer with
  | true => exact (hfirst ha).scopeVersion
  | false =>
    obtain ⟨t, ht, hr, hg⟩ := hs.writes w hw ha
    have hmt : compare t.github payload = .ok true := by
      rw [hg]
      exact (hc.secret _ _).trans hm
    have hb := (hbound t (.passed ht) hr hmt).scopeVersion
    rw [hg] at hb
    exact (withVariable_ne _ payload.sourceIds (by decide)).symm.trans hb

end Necessity

section Runs
variable (missing : Except MutationError Text)

theorem apply_compares (payload : BindingPayload) :
    Compares (apply missing payload) (recovered missing) payload
      (fun w => w.journal.getLast? ∈ applyPredecessors) where
  fails w hw e he a := by
    simp [apply, bind_apply, Run.andThen, Process.read, Process.write, appendTransition,
      FallibleSteps.require_of hw, he]
  keeps w hw hm := by
    simp [apply, bind_apply, Run.andThen, Process.read, Process.write, appendTransition,
      FallibleSteps.require_of hw, hm, Process.skipIf, Process.ret, pure]
  writes w hw hm := by
    refine ⟨⟨halfWritten payload w.github, w.journal ++ [.bindingWriting]⟩, ?_, ?_, rfl⟩
    · simp [apply, bind_apply, Run.andThen, Process.read, Process.write, appendTransition,
        FallibleSteps.require_of hw, hm, Process.skipIf, writeBinding, setSecret, setVariable,
        halfWritten, pure, Process.ret]
    · simp [applyPredecessors]

section Phases
variable {intent : BindingIntent} {w : Durable IntentJournal}

def IntentJournal.hold (journal : IntentJournal) (intent : BindingIntent) : IntentJournal :=
  { journal with active := some intent.identity }

theorem serialized_run (h : w.journal.Free intent) :
    (serialized intent w).result = .ok () ∧
      (serialized intent w).last = { w with journal := w.journal.hold intent } := by
  unfold serialized
  have hread : (Process.read (fun w : Durable IntentJournal => FallibleSteps.require
      (w.journal.Free intent) MutationError.bindingConflict) w).result = .ok ⟨⟩ := by
    simp only [Process.read, FallibleSteps.require_of h]
  have hc := continues_bind hread rfl (fun _ => Process.write
    fun w => { w with journal := { w.journal with active := some intent.identity } })
  exact ⟨hc.result, hc.last⟩

theorem beginWrite_begun (h : w.journal.Begun) :
    (beginWrite w).result = .ok false ∧ (beginWrite w).last = w := by
  simp [beginWrite, bind_apply, Run.andThen, Process.read, h, pure, Process.ret]

theorem beginWrite_first (h : ¬w.journal.Begun) :
    { w with journal := w.journal.append .bindingWriting } ∈ (beginWrite w).passed := by
  simp [beginWrite, bind_apply, Run.andThen, Process.read, Process.write, append, h, pure,
    Process.ret]

end Phases

theorem recoverGithub_github (intent : BindingIntent) (w : Durable IntentJournal) :
    (recoverGithub intent w).last.github = w.github := by
  by_cases hlast : w.journal.transitions.getLast? = some .bindingCommitted
  all_goals
    simp [recoverGithub, bind_apply, Run.andThen, Process.read, Process.write, Process.skipIf,
      append, hlast, pure, Process.ret]

theorem writeGithub_passes (intent : BindingIntent) (w : Durable IntentJournal) :
    w ∈ (writeGithub intent w).passed ∧
      { w with github := halfWritten intent.payload w.github } ∈ (writeGithub intent w).passed := by
  simp [writeGithub, writeBinding, bind_apply, Run.andThen, Process.write, setSecret,
    setVariable, append, halfWritten]

theorem applyGithub_resumes {intent : BindingIntent} {w : Durable IntentJournal}
    (hbegun : w.journal.Begun) (hfree : w.journal.Free intent) :
    Continues (applyGithub missing intent w)
      ((Process.read (fun w => liveBindingMatches missing w.github intent.payload) >>=
        fun recovered => if recovered = true then recoverGithub intent else writeGithub intent)
        { w with journal := w.journal.hold intent }) := by
  have hs := serialized_run hfree
  have hb := beginWrite_begun (w := { w with journal := w.journal.hold intent }) hbegun
  exact (continues_bind hs.1 hs.2 _).trans (continues_bind hb.1 hb.2 _)

theorem applyGithub_compares (intent : BindingIntent) :
    Compares (applyGithub missing intent) (liveBindingMatches missing) intent.payload
      (fun w => w.journal.Begun ∧ w.journal.Free intent) where
  fails w hw e he a ha := by
    rw [(applyGithub_resumes missing hw.1 hw.2).result] at ha
    exact absurd ((andThen_error he _).symm.trans ha) (by simp)
  keeps w hw hm := by
    rw [(applyGithub_resumes missing hw.1 hw.2).last, (continues_bind hm rfl _).last]
    exact recoverGithub_github intent _
  writes w hw hm := by
    have hpassed := (writeGithub_passes intent { w with journal := w.journal.hold intent }).2
    have hc := (applyGithub_resumes missing hw.1 hw.2).trans (continues_bind hm rfl _)
    exact ⟨_, hc.passed _ hpassed, ⟨hw.1, free_active _⟩, rfl⟩

theorem applyGithub_begins (intent : BindingIntent) {w : Durable IntentJournal}
    (hfree : w.journal.Free intent) (hfirst : ¬w.journal.Begun) :
    ∃ t ∈ (applyGithub missing intent w).passed,
      (t.journal.Begun ∧ t.journal.Free intent) ∧ t.github = w.github := by
  have hs := serialized_run hfree
  have hb := beginWrite_first (w := { w with journal := w.journal.hold intent }) hfirst
  let begun : Durable IntentJournal :=
    { w with journal := (w.journal.hold intent).append .bindingWriting }
  have hpassed : begun ∈ (applyGithub missing intent w).passed :=
    (continues_bind hs.1 hs.2 fun _ => beginWrite >>= _).passed _ (passed_bind hb _)
  have hheld : begun.journal.Free intent := free_active w.journal
  refine ⟨begun, hpassed, ⟨?_, hheld⟩, rfl⟩
  simp [begun, IntentJournal.Begun, IntentJournal.append]

theorem apply_survives_iff (payload : BindingPayload) (start : Durable Transitions)
    (hstart : start.journal.getLast? ∈ applyPredecessors) :
    SurvivesCrashes (apply missing payload) id payload start ↔
      Inferable (recovered missing) payload start.github := by
  constructor
  · intro h
    exact (apply_compares missing payload).inferable (recovered_reads missing payload) hstart
      h.completes
  · intro h
    have hfirst : Recoverable (recovered missing) payload (Resumable start.journal)
        (CommittedSince start.journal) start :=
      ⟨h, ⟨List.prefix_rfl, hstart⟩, fun hj => by simp [CommittedSince] at hj⟩
    have htriple := @apply_triple missing payload start.journal
    constructor
    · intro w hw
      have hr := htriple.restarted hfirst hw
      exact ⟨hr.sound.1, hr.bound⟩
    · intro w hw
      exact htriple.ends w (htriple.restarted hfirst hw)

theorem applyGithub_survives_iff (intent : BindingIntent) (start : Durable IntentJournal)
    (hstart : start.journal.Free intent) :
    SurvivesCrashes (applyGithub missing intent) IntentJournal.transitions intent.payload start ↔
      Inferable (liveBindingMatches missing) intent.payload start.github := by
  have hcompares := applyGithub_compares missing intent
  have hreads := liveBindingMatches_reads missing intent.payload
  constructor
  · intro h
    by_cases hbegun : start.journal.Begun
    · exact hcompares.inferable hreads ⟨hbegun, hstart⟩ h.completes
    · obtain ⟨t, ht, hr, hg⟩ := applyGithub_begins missing intent hstart hbegun
      have hi := hcompares.inferable hreads hr fun u hu =>
        h.completes u ((Restarted.passed ht).trans hu)
      exact hg ▸ hi
  · intro h
    have hfirst : Underway missing intent start.journal start :=
      ⟨h, ⟨List.prefix_rfl, hstart⟩, fun hj => by simp [CommittedSince] at hj⟩
    have htriple := @applyGithub_triple missing intent start.journal
    constructor
    · intro w hw
      have hr := htriple.restarted hfirst hw
      exact ⟨hr.sound.1, hr.bound⟩
    · intro w hw
      exact htriple.ends w (htriple.restarted hfirst hw)

end Runs

/-- Both apply steps survive every crash in exactly the environments whose variables tell
    whether the secret was written. -/
theorem bindingApplication_survives_iff (missing : Except MutationError Text) :
    (∀ (payload : BindingPayload) (start : Durable Transitions),
      start.journal.getLast? ∈ applyPredecessors →
      (SurvivesCrashes (apply missing payload) id payload start ↔
        Inferable (recovered missing) payload start.github)) ∧
    (∀ (intent : BindingIntent) (start : Durable IntentJournal), start.journal.Free intent →
      (SurvivesCrashes (applyGithub missing intent) IntentJournal.transitions intent.payload start ↔
        Inferable (liveBindingMatches missing) intent.payload start.github)) :=
  ⟨apply_survives_iff missing, applyGithub_survives_iff missing⟩

section Samples

def reviewedPayload : BindingPayload where
  protectedJson := "[\x7b\"platform\":\"dcinside\"\x7d,\x7b\"platform\":\"manifold\"\x7d]".toList
  sourceIds := "dcinside,manifold".toList
  scopeVersion := "phase1-reviewed-v1+manifold-v1".toList

def reviewedIntent : BindingIntent :=
  ⟨0xaaaaaaaaaaaa4aaa8aaaaaaaaaaaaaaa, reviewedPayload, reviewedPayload.sha256⟩

def reviewedEnvironment (secret : Option Text) : GitHubEnvironment where
  secret := secret
  vars
    | .monitorSourceIds => some reviewedPayload.sourceIds
    | .monitorScopeVersion => some reviewedPayload.scopeVersion
    | .monitorDeploymentActivationAt => none

def staleSecret : GitHubEnvironment := reviewedEnvironment none

theorem staleSecret_matches :
    recovered (.error .github) staleSecret reviewedPayload = .ok true ∧
      liveBindingMatches (.error .github) staleSecret reviewedPayload = .ok true := by
  constructor <;> decide +kernel

theorem staleSecret_unbound : ¬Bound reviewedPayload staleSecret := by
  intro h
  simpa [staleSecret, reviewedEnvironment] using h.secret

/-- With the variables of the payload in place, no step ever writes the secret: `_apply`
    recovers at its first run, `apply_github` after a crash before its first write. -/
theorem staleSecret_committed :
    (¬∀ (payload : BindingPayload) (start : Durable Transitions),
      start.journal.getLast? ∈ applyPredecessors →
      SurvivesCrashes (apply (.error .github) payload) id payload start) ∧
    (¬∀ (intent : BindingIntent) (start : Durable IntentJournal), start.journal.Free intent →
      SurvivesCrashes (applyGithub (.error .github) intent) IntentJournal.transitions
        intent.payload start) := by
  constructor
  · intro h
    have hs := h reviewedPayload ⟨staleSecret, [.prepared]⟩ (by decide)
    exact staleSecret_unbound
      (((apply_survives_iff _ _ _ (by decide)).mp hs).first staleSecret_matches.1)
  · intro h
    have hs := h reviewedIntent ⟨staleSecret, ⟨none, []⟩⟩ (by simp [IntentJournal.Free])
    exact staleSecret_unbound
      (((applyGithub_survives_iff _ _ _ (by simp [IntentJournal.Free])).mp hs).first
        staleSecret_matches.2)

/-- An earlier binding: no secret and other variables, so that everything is to be written. -/
def earlierEnvironment : GitHubEnvironment where
  secret := none
  vars
    | .monitorSourceIds => some "dcinside".toList
    | .monitorScopeVersion => some "phase1-reviewed-v1".toList
    | .monitorDeploymentActivationAt => none

theorem earlierEnvironment_differs :
    recovered (.error .github) earlierEnvironment reviewedPayload = .ok false ∧
      liveBindingMatches (.error .github) earlierEnvironment reviewedPayload = .ok false ∧
      recovered (.error .github) (earlierEnvironment.withVariable .monitorSourceIds
        reviewedPayload.sourceIds) reviewedPayload = .ok false ∧
      liveBindingMatches (.error .github) (earlierEnvironment.withVariable .monitorSourceIds
        reviewedPayload.sourceIds) reviewedPayload = .ok false := by
  refine ⟨?_, ?_, ?_, ?_⟩ <;> decide +kernel

theorem inferable_of_differs {compare : Comparison} {payload : BindingPayload}
    {github : GitHubEnvironment} (hfirst : compare github payload = .ok false)
    (hresumed : compare (github.withVariable .monitorSourceIds payload.sourceIds) payload =
      .ok false) : Inferable compare payload github where
  answers := ⟨false, hfirst⟩
  first h := by simp [hfirst] at h
  resumed h := by simp [hresumed] at h

/-- Both steps replace an earlier binding, and neither finds a missing secret. -/
theorem bindingApplication_survives_iff_sample :
    (SurvivesCrashes (apply (.error .github) reviewedPayload) id reviewedPayload
      ⟨earlierEnvironment, [.prepared]⟩) ∧
    (SurvivesCrashes (applyGithub (.error .github) reviewedIntent) IntentJournal.transitions
      reviewedPayload ⟨earlierEnvironment, ⟨none, []⟩⟩) ∧
    ¬(SurvivesCrashes (applyGithub (.error .github) reviewedIntent) IntentJournal.transitions
      reviewedPayload ⟨staleSecret, ⟨none, []⟩⟩) := by
  have h := bindingApplication_survives_iff (.error .github)
  obtain ⟨hrecovered, hmatches, hrecoveredIds, hmatchesIds⟩ := earlierEnvironment_differs
  refine ⟨?_, ?_, fun hs => ?_⟩
  · exact (h.1 reviewedPayload ⟨earlierEnvironment, [.prepared]⟩ (by decide)).mpr
      (inferable_of_differs hrecovered hrecoveredIds)
  · exact (h.2 reviewedIntent ⟨earlierEnvironment, ⟨none, []⟩⟩
      (by simp [IntentJournal.Free])).mpr (inferable_of_differs hmatches hmatchesIds)
  · have hi := (h.2 reviewedIntent ⟨staleSecret, ⟨none, []⟩⟩ (by simp [IntentJournal.Free])).mp hs
    exact staleSecret_unbound (hi.first staleSecret_matches.2)

end Samples

end PredictionMarketMonitor.BindingApplication
