import PredictionMarketMonitor.ChangeLogs
import PredictionMarketMonitor.ManifestRoundTrip

set_option autoImplicit false

/-!
# Report history

`app/reporting/repository.py` and `reconciliation.py`: the append-only history of the
daily reports, as the in-memory repository keeps it.
-/
namespace PredictionMarketMonitor.ReportHistory

open CanonicalJson ChangeLogs CivilTime CollectionBase FallibleSteps ReportInputs ReportManifest
open ReportFormula ManifestRoundTrip Sha256

structure AppendReportRequest where
  reportId : UUID
  versionId : UUID
  manifestId : UUID
  reportDateSeoul : Date
  reportSchemaVersion : Text
  inputSetHash : Digest
  createdAt : Instant
  retainUntil : Instant
  retained : RetainedReport

structure StoredReportVersion where
  reportId : UUID
  versionId : UUID
  manifestId : UUID
  reportDateSeoul : Date
  revision : ℕ
  supersedesVersionId : Option UUID
  reportSchemaVersion : Text
  inputSetHash : Digest
  createdAt : Instant
  retainUntil : Instant
  retained : RetainedReport

structure AppendReportOutcome where
  version : StoredReportVersion
  created : Bool

def AppendReportRequest.identity (request : AppendReportRequest) : Text × Digest :=
  (request.reportSchemaVersion, request.inputSetHash)

def StoredReportVersion.identity (version : StoredReportVersion) : Text × Digest :=
  (version.reportSchemaVersion, version.inputSetHash)

/-- The current version, when it already is what the request proposes. -/
def current? (latest : Option StoredReportVersion) (request : AppendReportRequest) :
    Option StoredReportVersion :=
  latest.filter fun version => version.reportSchemaVersion = request.reportSchemaVersion ∧
    version.inputSetHash = request.inputSetHash

def nextVersion (latest : Option StoredReportVersion) (request : AppendReportRequest) :
    StoredReportVersion where
  reportId := (latest.map (·.reportId)).getD request.reportId
  versionId := request.versionId
  manifestId := request.manifestId
  reportDateSeoul := request.reportDateSeoul
  revision := match latest with
    | none => 1
    | some version => version.revision + 1
  supersedesVersionId := latest.map (·.versionId)
  reportSchemaVersion := request.reportSchemaVersion
  inputSetHash := request.inputSetHash
  createdAt := request.createdAt
  retainUntil := request.retainUntil
  retained := request.retained

structure ReconcileRequest where
  payload : ReportInputManifest
  createdAt : Instant
  reportId : UUID
  versionId : UUID
  manifestId : UUID

def reportRetentionDays : ℤ := 180

def appendReportRequest (nf : NormalForm) (gzip : Gzip) (request : ReconcileRequest) :
    Except ReportFailure AppendReportRequest := do
  let build ← projectReport nf gzip request.payload
  return {
    reportId := request.reportId
    versionId := request.versionId
    manifestId := request.manifestId
    reportDateSeoul := build.payload.reportDateSeoul
    reportSchemaVersion := reportSchemaName.toList
    inputSetHash := build.payload.inputSetHash
    createdAt := request.createdAt
    retainUntil := request.createdAt + seconds (reportRetentionDays * 86400)
    retained := retainedOf build }

/-- The dict of histories, in the order in which its dates were first seen. -/
abbrev Histories := List (Date × List StoredReportVersion)

namespace Histories

def history (histories : Histories) (date : Date) : List StoredReportVersion :=
  ((histories.find? (fun entry => entry.1 = date)).map Prod.snd).getD []

def setdefault (histories : Histories) (date : Date) : Histories :=
  if date ∈ histories.map Prod.fst then histories else histories ++ [(date, [])]

/-- `history.append(version)` in the list of a date. -/
def push (histories : Histories) (date : Date) (version : StoredReportVersion) : Histories :=
  histories.map fun entry => if entry.1 = date then (entry.1, entry.2 ++ [version]) else entry

/-- `append_if_changed` of the in-memory repository. -/
def appendIfChanged (histories : Histories) (request : AppendReportRequest) :
    Histories × AppendReportOutcome :=
  let histories := histories.setdefault request.reportDateSeoul
  let latest := (histories.history request.reportDateSeoul).getLast?
  match current? latest request with
  | some version => (histories, ⟨version, false⟩)
  | none =>
    let version := nextVersion latest request
    (histories.push request.reportDateSeoul version, ⟨version, true⟩)

def after (requests : List AppendReportRequest) : Histories :=
  requests.foldl (fun histories request => (histories.appendIfChanged request).1) []

end Histories

section History

def historyOf (kept : List AppendReportRequest) : List StoredReportVersion :=
  kept.foldl (fun versions request => versions ++ [nextVersion versions.getLast? request]) []

@[simp] theorem historyOf_nil : historyOf [] = [] := rfl

theorem historyOf_concat (kept : List AppendReportRequest) (request : AppendReportRequest) :
    historyOf (kept ++ [request]) =
      historyOf kept ++ [nextVersion (historyOf kept).getLast? request] := by
  rw [historyOf, List.foldl_append]
  rfl

theorem historyOf_map {β : Type} {f : StoredReportVersion → β} {g : AppendReportRequest → β}
    (h : ∀ latest request, f (nextVersion latest request) = g request)
    (kept : List AppendReportRequest) : (historyOf kept).map f = kept.map g := by
  induction kept using List.reverseRecOn with
  | nil => rfl
  | append_singleton kept request ih =>
    rw [historyOf_concat, List.map_append, List.map_append, ih, List.map_singleton,
      List.map_singleton, h]

theorem historyOf_identities (kept : List AppendReportRequest) :
    (historyOf kept).map StoredReportVersion.identity = kept.map AppendReportRequest.identity :=
  historyOf_map (fun _ _ => rfl) kept

theorem nextVersion_revision {versions : List StoredReportVersion} {request : AppendReportRequest}
    (h : versions.map (·.revision) = List.range' 1 versions.length) :
    (nextVersion versions.getLast? request).revision = versions.length + 1 := by
  cases hlast : versions.getLast? with
  | none =>
    rw [List.getLast?_eq_none_iff.mp hlast]
    rfl
  | some last =>
    obtain ⟨init, rfl⟩ := List.getLast?_eq_some_iff.mp hlast
    rw [List.map_append, List.length_append, List.length_singleton, List.range'_concat] at h
    have hrevision := (List.append_inj' h rfl).2
    simp only [List.map_singleton, List.cons.injEq, and_true] at hrevision
    simp only [nextVersion, hrevision, List.length_append, List.length_singleton]
    omega

theorem revisions_concat {versions : List StoredReportVersion} {request : AppendReportRequest}
    (h : versions.map (·.revision) = List.range' 1 versions.length) :
    (versions ++ [nextVersion versions.getLast? request]).map (·.revision) =
      List.range' 1 (versions ++ [nextVersion versions.getLast? request]).length := by
  rw [List.map_append, h, List.length_append, List.length_singleton, List.range'_concat,
    List.map_singleton, nextVersion_revision h]
  congr 2
  omega

theorem historyOf_revisions (kept : List AppendReportRequest) :
    (historyOf kept).map (·.revision) = List.range' 1 (historyOf kept).length := by
  induction kept using List.reverseRecOn with
  | nil => rfl
  | append_singleton kept request ih =>
    rw [historyOf_concat]
    exact revisions_concat ih

/-- The laws of an append-only history: contiguous revisions of one report and one
    date, each superseding the one before it and different from it. -/
structure Lawful (date : Date) (versions : List StoredReportVersion) : Prop where
  dates : ∀ version ∈ versions, version.reportDateSeoul = date
  revisions : versions.map (·.revision) = List.range' 1 versions.length
  supersedes : versions.map (·.supersedesVersionId) =
    (none :: versions.map fun version => some version.versionId).dropLast
  reports : ∀ version ∈ versions, ∀ other ∈ versions, version.reportId = other.reportId
  changes : versions.IsChain fun version next => version.identity ≠ next.identity

theorem lawful_nil (date : Date) : Lawful date [] :=
  ⟨fun _ h => absurd h List.not_mem_nil, rfl, rfl, fun _ h => absurd h List.not_mem_nil, .nil⟩

theorem Lawful.concat {date : Date} {versions : List StoredReportVersion}
    {request : AppendReportRequest} (h : Lawful date versions)
    (hdate : request.reportDateSeoul = date)
    (hchange : versions.getLast?.map StoredReportVersion.identity ≠ some request.identity) :
    Lawful date (versions ++ [nextVersion versions.getLast? request]) := by
  refine ⟨?_, ?_, ?_, ?_, ?_⟩
  · intro version hversion
    rcases List.mem_append.mp hversion with hold | hnew
    · exact h.dates version hold
    · rw [List.mem_singleton.mp hnew]
      exact hdate
  · exact revisions_concat h.revisions
  · rw [List.map_append, h.supersedes, List.map_append, ← List.cons_append, List.map_singleton,
      List.map_singleton, List.dropLast_concat]
    cases hlast : versions.getLast? with
    | none =>
      rw [List.getLast?_eq_none_iff.mp hlast]
      rfl
    | some last =>
      obtain ⟨init, rfl⟩ := List.getLast?_eq_some_iff.mp hlast
      rw [List.map_append, ← List.cons_append, List.map_singleton, List.dropLast_concat]
      rfl
  · have hnew : ∀ version ∈ versions, version.reportId =
        (nextVersion versions.getLast? request).reportId := by
      intro version hversion
      cases hlast : versions.getLast? with
      | none =>
        rw [List.getLast?_eq_none_iff.mp hlast] at hversion
        exact absurd hversion List.not_mem_nil
      | some last => exact h.reports version hversion last (List.mem_of_getLast? hlast)
    intro version hversion other hother
    rcases List.mem_append.mp hversion with hold | hlast
    · rcases List.mem_append.mp hother with hother | hother
      · exact h.reports version hold other hother
      · rw [List.mem_singleton.mp hother]
        exact hnew version hold
    · rw [List.mem_singleton.mp hlast]
      rcases List.mem_append.mp hother with hother | hother
      · exact (hnew other hother).symm
      · rw [List.mem_singleton.mp hother]
  · refine List.isChain_append.mpr ⟨h.changes, .singleton _, fun last hlast next hnext heq => ?_⟩
    obtain rfl : nextVersion versions.getLast? request = next := by simpa using hnext
    refine hchange ?_
    rw [Option.mem_def.mp hlast, Option.map_some, heq]
    rfl

theorem historyOf_lawful {date : Date} {kept : List AppendReportRequest}
    (hdates : ∀ request ∈ kept, request.reportDateSeoul = date)
    (hchanges : kept.IsChain fun request next => request.identity ≠ next.identity) :
    Lawful date (historyOf kept) := by
  induction kept using List.reverseRecOn with
  | nil => exact lawful_nil date
  | append_singleton kept request ih =>
    obtain ⟨hold, _, hlast⟩ := List.isChain_append.mp hchanges
    rw [historyOf_concat]
    refine (ih (fun r hr => hdates r (List.mem_append_left _ hr)) hold).concat
      (hdates request (List.mem_append_right _ (List.mem_singleton.mpr rfl))) fun heq => ?_
    rw [← List.getLast?_map, historyOf_identities, List.getLast?_map] at heq
    obtain ⟨last, hmem, hidentity⟩ := Option.map_eq_some_iff.mp heq
    exact hlast last hmem request rfl hidentity

theorem current?_eq_some {latest : Option StoredReportVersion} {request : AppendReportRequest}
    {version : StoredReportVersion} : current? latest request = some version ↔
      latest = some version ∧ version.identity = request.identity := by
  rw [current?, Option.filter_eq_some_iff]
  simp [StoredReportVersion.identity, AppendReportRequest.identity]

theorem current?_eq_none {latest : Option StoredReportVersion} {request : AppendReportRequest} :
    current? latest request = none ↔
      latest.map StoredReportVersion.identity ≠ some request.identity := by
  cases latest with
  | none => simp [current?]
  | some version =>
    rw [current?, Option.filter_eq_none_iff]
    simp [StoredReportVersion.identity, AppendReportRequest.identity]

end History

section Reference
variable {histories : Histories} {date : Date}

namespace Histories

theorem history_setdefault (histories : Histories) (date other : Date) :
    (histories.setdefault date).history other = histories.history other := by
  rw [setdefault]
  split
  · rfl
  · rename_i hnew
    rw [history, history, List.find?_append]
    cases hfind : histories.find? (fun entry => entry.1 = other) with
    | some entry => rfl
    | none =>
      by_cases hsame : date = other
      · simp [hsame]
      · simp [hsame]

theorem mem_setdefault (histories : Histories) (date : Date) :
    date ∈ (histories.setdefault date).map Prod.fst := by
  rw [setdefault]
  split
  · assumption
  · simp

theorem history_push (version : StoredReportVersion) (hmem : date ∈ histories.map Prod.fst)
    (other : Date) : (histories.push date version).history other =
      if other = date then histories.history date ++ [version] else histories.history other := by
  have hfirst : ∀ entry : Date × List StoredReportVersion,
      (if entry.1 = date then (entry.1, entry.2 ++ [version]) else entry).1 = entry.1 := by
    intro entry
    split <;> rfl
  have hcomp : ((fun entry : Date × List StoredReportVersion => decide (entry.1 = other)) ∘ fun entry =>
      if entry.1 = date then (entry.1, entry.2 ++ [version]) else entry) =
        fun entry => decide (entry.1 = other) := by
    funext entry
    rw [Function.comp_apply, hfirst]
  rw [history, push, List.find?_map, hcomp, history, history]
  split
  · rename_i hsame
    subst hsame
    cases hfind : histories.find? (fun entry => entry.1 = other) with
    | none =>
      obtain ⟨entry, hentry, rfl⟩ := List.mem_map.mp hmem
      exact absurd (decide_eq_true rfl) (List.find?_eq_none.mp hfind entry hentry)
    | some entry =>
      have hkey : entry.1 = other := by simpa using List.find?_some hfind
      simp [hkey]
  · rename_i hne
    cases hfind : histories.find? (fun entry => entry.1 = other) with
    | none => rfl
    | some entry =>
      have hkey : entry.1 = other := by simpa using List.find?_some hfind
      have hother : entry.1 ≠ date := fun h => hne (hkey.symm.trans h)
      simp [hother]

theorem history_append (request : AppendReportRequest) :
    (histories.appendIfChanged request).1.history date =
      if request.reportDateSeoul = date then
        match current? (histories.history date).getLast? request with
        | some _ => histories.history date
        | none => histories.history date ++ [nextVersion (histories.history date).getLast? request]
      else histories.history date := by
  rw [appendIfChanged, history_setdefault]
  by_cases hsame : request.reportDateSeoul = date
  · subst hsame
    rw [if_pos rfl]
    cases hcurrent : current? (histories.history request.reportDateSeoul).getLast? request with
    | some version => exact history_setdefault _ _ _
    | none =>
      have hpush := history_push (nextVersion (histories.history request.reportDateSeoul).getLast? request)
        (mem_setdefault histories request.reportDateSeoul) request.reportDateSeoul
      rwa [if_pos rfl, history_setdefault] at hpush
  · rw [if_neg hsame]
    cases hcurrent : current? (histories.history request.reportDateSeoul).getLast? request with
    | some version => exact history_setdefault _ _ _
    | none =>
      have hpush := history_push (nextVersion (histories.history request.reportDateSeoul).getLast? request)
        (mem_setdefault histories request.reportDateSeoul) date
      rwa [if_neg (Ne.symm hsame), history_setdefault] at hpush

theorem after_concat (requests : List AppendReportRequest) (request : AppendReportRequest) :
    after (requests ++ [request]) = ((after requests).appendIfChanged request).1 := by
  rw [after, List.foldl_append]
  rfl

def ofDate (requests : List AppendReportRequest) (date : Date) : List AppendReportRequest :=
  requests.filter fun request => request.reportDateSeoul = date

theorem ofDate_concat (requests : List AppendReportRequest) (request : AppendReportRequest)
    (date : Date) : ofDate (requests ++ [request]) date =
      ofDate requests date ++ if request.reportDateSeoul = date then [request] else [] := by
  rw [ofDate, List.filter_append, ofDate]
  by_cases h : request.reportDateSeoul = date <;> simp [h]

theorem history_after (requests : List AppendReportRequest) (date : Date) :
    (after requests).history date =
      historyOf (changed AppendReportRequest.identity (ofDate requests date)) := by
  induction requests using List.reverseRecOn with
  | nil => rfl
  | append_singleton requests request ih =>
    rw [after_concat, history_append, ofDate_concat]
    split
    · rw [ih, changed_concat, pushChanged]
      cases hcurrent : current? (historyOf (changed AppendReportRequest.identity
          (ofDate requests date))).getLast? request with
      | some version =>
        obtain ⟨hlast, hidentity⟩ := current?_eq_some.mp hcurrent
        rw [if_pos]
        rw [← List.getLast?_map, ← historyOf_identities, List.getLast?_map, hlast, Option.map_some,
          hidentity]
      | none =>
        have hchange := current?_eq_none.mp hcurrent
        rw [← List.getLast?_map, historyOf_identities, List.getLast?_map] at hchange
        rw [if_neg hchange, historyOf_concat]
    · rw [List.append_nil, ih]

end Histories

end Reference

section Growth

theorem isPrefix_historyOf {xs ys : List AppendReportRequest} (h : xs <+: ys) :
    historyOf xs <+: historyOf ys := by
  obtain ⟨rest, rfl⟩ := h
  induction rest using List.reverseRecOn with
  | nil => rw [List.append_nil]
  | append_singleton rest request ih =>
    rw [← List.append_assoc, historyOf_concat]
    exact ih.trans (List.prefix_append _ _)

theorem ofDate_append (xs ys : List AppendReportRequest) (date : Date) :
    Histories.ofDate (xs ++ ys) date = Histories.ofDate xs date ++ Histories.ofDate ys date :=
  List.filter_append ..

theorem history_lawful (requests : List AppendReportRequest) (date : Date) :
    Lawful date ((Histories.after requests).history date) := by
  rw [Histories.history_after]
  exact historyOf_lawful (fun r hr => of_decide_eq_true (List.mem_filter.mp (changed_subset _ hr)).2)
    (changed_isChain _)

/-- The reference store, over every sequence of requests: the history of a date is
    lawful and made of the requests that changed its input set; it only grows; and a
    request appends exactly when it differs from the current version. -/
theorem histories_lawful (requests : List AppendReportRequest) (date : Date) :
    Lawful date ((Histories.after requests).history date) ∧
    (Histories.after requests).history date =
      historyOf (changed AppendReportRequest.identity (Histories.ofDate requests date)) ∧
    (∀ more, (Histories.after requests).history date <+:
      (Histories.after (requests ++ more)).history date) ∧
    ∀ request outcome, request.reportDateSeoul = date →
      ((Histories.after requests).appendIfChanged request).2 = outcome →
      (outcome.created = true ↔ ((Histories.after requests).history date).getLast?.map
        StoredReportVersion.identity ≠ some request.identity) ∧
      (Histories.after (requests ++ [request])).history date =
        (Histories.after requests).history date ++
          (if outcome.created then [outcome.version] else []) ∧
      ((Histories.after (requests ++ [request])).history date).getLast? = some outcome.version := by
  refine ⟨history_lawful requests date, Histories.history_after requests date, fun more => ?_, ?_⟩
  · rw [Histories.history_after, Histories.history_after, ofDate_append]
    exact isPrefix_historyOf (isPrefix_changed _ _)
  · rintro request outcome rfl rfl
    rw [Histories.after_concat, Histories.history_append, if_pos rfl, Histories.appendIfChanged,
      Histories.history_setdefault]
    cases hcurrent : current? ((Histories.after requests).history
        request.reportDateSeoul).getLast? request with
    | some version =>
      obtain ⟨hlast, hidentity⟩ := current?_eq_some.mp hcurrent
      refine ⟨iff_of_false (by simp) fun hne => hne ?_, ?_, hlast⟩
      · rw [hlast, Option.map_some, hidentity]
      · simp
    | none => exact ⟨iff_of_true rfl (current?_eq_none.mp hcurrent), rfl, List.getLast?_concat⟩

end Growth

end PredictionMarketMonitor.ReportHistory
