import PredictionMarketMonitor.HistoryTables
import PredictionMarketMonitor.KeySorting

set_option autoImplicit false

/-!
# Expiry of stored reports

The SQL expiry of `app/reporting/retention_sql_expiry.py` on the report tables. The rows
of `daily_report_versions` are immutable and the manifest row of a version restricts its
deletion, so an expiry never removes anything.
-/
namespace PredictionMarketMonitor.ReportExpiry

open CivilTime CollectionBase FallibleSteps KeySorting KeyedTable ManifestRoundTrip ReportFormula
open ReportHistory ReportInputs ReportManifest HistoryTables

/-- Why an expiry fails: `scalar_one` finds no row or several, a row of an immutable table
    would be updated, a foreign key restricts a deletion, or a deletion finds nothing. -/
inductive ExpiryError
  | noResultFound
  | multipleResultsFound
  | immutableRow
  | restricted
  | runtimeError (message : String)
  deriving DecidableEq

def scalarOne {α : Type} : List α → Except ExpiryError α
  | [] => .error .noResultFound
  | [row] => .ok row
  | _ => .error .multipleResultsFound

section Expiry
variable (db : ReportTables)

def expiryKey (retainUntil : Instant) (id : UUID) : ℤ ×ₗ ℕ := toLex (retainUntil, id.toNat)

def lockExpiredManifestRows (observedAt : Instant) : List StoredManifest :=
  sortBy (fun row => expiryKey row.retainUntil row.id)
    (db.manifests.rows.filter fun row => row.retainUntil ≤ observedAt)

def deleteReportDependenciesRow (manifestId : UUID) : Except ExpiryError ReportTables := do
  let version ← scalarOne (db.versions.rows.filter fun row => row.manifestId = manifestId)
  let report ← present (db.reports.find? version.reportId) .noResultFound
  let latestVersionId :=
    if report.latestVersionId = some version.id then none else report.latestVersionId
  let reports := db.reports.update report.id
    (fun row => { row with latestVersionId := latestVersionId }) fun _ => rfl
  -- `trg_daily_report_versions_immutable` refuses each row that the update would touch
  require (∀ row ∈ db.versions.rows, row.supersedesVersionId ≠ some version.id) .immutableRow
  -- `ON DELETE RESTRICT` is checked by the deletion itself, also on a deferrable key
  require (∀ row ∈ reports.rows, row.latestVersionId ≠ some version.id) .restricted
  require (∀ row ∈ db.manifests.rows, row.reportVersionId ≠ version.id) .restricted
  let versions := db.versions.filter fun row => row.id ≠ version.id
  match (versions.rows.filter fun row => row.reportId = report.id).argmax (·.revision) with
  | none => return { db with
      reports := reports.filter fun row => row.id ≠ report.id
      versions := versions }
  | some replacement => return { db with
      reports := reports.update report.id (fun row =>
        { row with latestVersionId := latestVersionId <|> some replacement.id }) fun _ => rfl
      versions := versions }

def deleteManifestRow (manifestId : UUID) : Except ExpiryError ReportTables := do
  let _ ← present (db.manifests.find? manifestId) (.runtimeError "retention_manifest_delete_failed")
  require (∀ row ∈ db.versions.rows, row.manifestId ≠ manifestId) .restricted
  return { db with manifests := db.manifests.filter fun row => row.id ≠ manifestId }

/-- The report rows of `expire_retained_reports`. -/
def expireReports (observedAt : Instant) : Except ExpiryError ReportTables := do
  let manifests := lockExpiredManifestRows db observedAt
  let db ← manifests.foldlM (fun db manifest => deleteReportDependenciesRow db manifest.id) db
  manifests.foldlM (fun db manifest => deleteManifestRow db manifest.id) db

end Expiry

inductive ReportCommand
  | append (request : AppendReportRequest)
  | expire (observedAt : Instant)

def ReportCommand.request? : ReportCommand → Option AppendReportRequest
  | .append request => some request
  | .expire _ => none

def reportStep (codecs : Codecs)
    (admits : AppendReportRequest → ReportInputManifest → DailyReportPayload → Bool)
    (db : ReportTables) : ReportCommand → Except (StoreError ⊕ ExpiryError) ReportTables
  | .append request => (sqlStep codecs admits db request).mapError .inl
  | .expire observedAt => (expireReports db observedAt).mapError .inr

section Tables
variable {db : ReportTables} {kept : Date → List AppendReportRequest} {date : Date}

theorem lawful (h : Coherent db kept) (date : Date) : Lawful date (historyOf (kept date)) := by
  refine historyOf_lawful (h.dates date) ?_
  have hpairwise := List.pairwise_map.mp (h.distinct date)
  exact hpairwise.isChain

/-- The version row of a manifest is the one of its version. -/
theorem manifest_row_iff (h : Coherent db kept) {version : StoredReportVersion}
    (hversion : version ∈ historyOf (kept date)) {row : DailyReportVersion}
    (hrow : row ∈ db.versions) : row.manifestId = version.manifestId ↔ row = rowOf version := by
  refine ⟨fun hmanifest => ?_, fun heq => heq ▸ rfl⟩
  obtain ⟨other, hother, rfl⟩ := h.row_mem hrow
  have hsame : manifestOf other = manifestOf version :=
    Table.eq_of_key (h.mem_manifests hother) (h.mem_manifests hversion) hmanifest
  have hid : (manifestOf other).reportVersionId = (manifestOf version).reportVersionId := by
    rw [hsame]
  exact Table.eq_of_key hrow (h.mem_versions hversion) hid

theorem report_row (h : Coherent db kept) {version : StoredReportVersion}
    (hversion : version ∈ historyOf (kept date)) :
    ∃ report, db.reports.find? version.reportId = some report := by
  have hlast := List.getLast?_eq_some_getLast (List.ne_nil_of_mem hversion)
  have hlocked := h.locked date
  rw [hlast, Option.map_some] at hlocked
  obtain ⟨report, hreport, hpair⟩ := Option.map_eq_some_iff.mp hlocked
  have hreports := (lawful h date).reports version hversion _ (List.mem_of_getLast? hlast)
  have hid : report.id = version.reportId := (Prod.mk.inj hpair).1.trans hreports.symm
  exact ⟨report, Table.find?_eq_some.mpr ⟨List.mem_of_find?_eq_some hreport, hid⟩⟩

/-- A stored version does not go: its successor is immutable, and where it has none its
    manifest restricts the deletion. -/
theorem deleteDependencies_fails (h : Coherent db kept) {version : StoredReportVersion}
    (hversion : version ∈ historyOf (kept date)) :
    deleteReportDependenciesRow db version.manifestId = .error
      (if ∃ row ∈ db.versions.rows, row.supersedesVersionId = some version.versionId
        then .immutableRow else .restricted) := by
  obtain ⟨report, hreport⟩ := report_row h hversion
  have hsingle : (db.versions.rows.filter fun row => row.manifestId = version.manifestId) =
      [rowOf version] :=
    Table.rows_filter_unique (h.mem_versions hversion) fun row hrow => manifest_row_iff h hversion hrow
  have hfind : db.reports.find? (rowOf version).reportId = some report := hreport
  have hrestricted : ¬∀ row ∈ db.manifests.rows, row.reportVersionId ≠ (rowOf version).id :=
    fun hall => hall (manifestOf version) (h.mem_manifests hversion) rfl
  rw [deleteReportDependenciesRow, hsingle, scalarOne, ok_bind, hfind, present, ok_bind]
  by_cases hsuperseded : ∃ row ∈ db.versions.rows, row.supersedesVersionId = some version.versionId
  · have hrefused : ¬∀ row ∈ db.versions.rows, row.supersedesVersionId ≠ some (rowOf version).id :=
      fun hall => hsuperseded.elim fun row hrow => hall row hrow.1 hrow.2
    rw [if_pos hsuperseded, require_of_not hrefused]
    rfl
  · have hfree : ∀ row ∈ db.versions.rows, row.supersedesVersionId ≠ some (rowOf version).id :=
      fun row hrow hlink => hsuperseded ⟨row, hrow, hlink⟩
    rw [if_neg hsuperseded, require_of hfree, ok_bind, require_of_not hrestricted]
    -- the pointers, checked before the manifests, restrict it with the same error
    by_cases hpointers : ∀ row ∈ (db.reports.update report.id (fun row => { row with
        latestVersionId := if report.latestVersionId = some (rowOf version).id then none
          else report.latestVersionId }) fun _ => rfl).rows,
        row.latestVersionId ≠ some (rowOf version).id
    · rw [require_of hpointers]
      rfl
    · rw [require_of_not hpointers]
      rfl

theorem lockExpired_eq_nil {observedAt : Instant} : lockExpiredManifestRows db observedAt = [] ↔
    ∀ row ∈ db.manifests, observedAt < row.retainUntil := by
  rw [List.eq_nil_iff_forall_not_mem]
  refine forall_congr' fun row => ?_
  rw [lockExpiredManifestRows, mem_sortBy, List.mem_filter, decide_eq_true_iff, not_and, not_le]
  rfl

theorem expireReports_quiet {observedAt : Instant} (h : lockExpiredManifestRows db observedAt = []) :
    expireReports db observedAt = .ok db := by
  rw [expireReports, h]
  rfl

theorem expireReports_due (h : Coherent db kept) {observedAt : Instant} {first : StoredManifest}
    {others : List StoredManifest} (hdue : lockExpiredManifestRows db observedAt = first :: others) :
    expireReports db observedAt = .error
      (if ∃ row ∈ db.versions.rows, row.supersedesVersionId = some first.reportVersionId
        then .immutableRow else .restricted) := by
  have hfirst : first ∈ lockExpiredManifestRows db observedAt := by
    rw [hdue]
    exact List.mem_cons_self
  rw [lockExpiredManifestRows, mem_sortBy] at hfirst
  obtain ⟨version, hversion, rfl⟩ := h.manifest_mem (List.mem_filter.mp hfirst).1
  have hfails := deleteDependencies_fails h hversion
  rw [expireReports, hdue, List.foldlM_cons]
  exact congrArg (fun deleted => (deleted >>= _) >>= _) hfails

end Tables

section Runs
variable (codecs : Codecs)
variable (admits : AppendReportRequest → ReportInputManifest → DailyReportPayload → Bool)
variable {db : ReportTables} {kept : Date → List AppendReportRequest}

theorem attempt_append (db : ReportTables) (request : AppendReportRequest) :
    attempt (reportStep codecs admits) db (.append request) =
      attempt (sqlStep codecs admits) db request := by
  cases hstep : sqlStep codecs admits db request with
  | error e =>
    have herror : reportStep codecs admits db (.append request) = .error (.inl e) := by
      rw [reportStep, hstep]
      rfl
    rw [attempt_of_error herror, attempt_of_error hstep]
  | ok t =>
    have hok : reportStep codecs admits db (.append request) = .ok t := by
      rw [reportStep, hstep]
      rfl
    rw [attempt_of_ok hok, attempt_of_ok hstep]

theorem attempt_expire (h : Coherent db kept) (observedAt : Instant) :
    attempt (reportStep codecs admits) db (.expire observedAt) = db := by
  cases hdue : lockExpiredManifestRows db observedAt with
  | nil =>
    have hok : reportStep codecs admits db (.expire observedAt) = .ok db := by
      rw [reportStep, expireReports_quiet hdue]
      rfl
    exact attempt_of_ok hok
  | cons first others =>
    obtain ⟨e, he⟩ : ∃ e, expireReports db observedAt = .error e := ⟨_, expireReports_due h hdue⟩
    have herror : reportStep codecs admits db (.expire observedAt) = .error (.inr e) := by
      rw [reportStep, he]
      rfl
    exact attempt_of_error herror

theorem append_grows (h : Coherent db kept) (request : AppendReportRequest) :
    ∃ left, Coherent (attempt (sqlStep codecs admits) db request) left ∧
      ∀ date, kept date <+: left date := by
  cases hstep : sqlStep codecs admits db request with
  | error e =>
    rw [attempt_of_error hstep]
    exact ⟨kept, h, fun _ => List.prefix_rfl⟩
  | ok t =>
    rw [attempt_of_ok hstep]
    obtain ⟨outcome, happend⟩ := sqlStep_eq_ok.mp hstep
    rcases (appendInSession_iff h).mp happend with ⟨_, _, rfl, _⟩ | ⟨_, _, haccepts, hwrites, _⟩
    · exact ⟨kept, h, fun _ => List.prefix_rfl⟩
    · refine ⟨keep kept request, h.append haccepts hwrites, fun date => ?_⟩
      rw [keep]
      by_cases hdate : date = request.reportDateSeoul
      · subst hdate
        rw [Function.update_self]
        exact List.prefix_append _ _
      · rw [Function.update_of_ne hdate]

theorem run_appends (h : Coherent db kept) (commands : List ReportCommand) :
    run (reportStep codecs admits) db commands =
      run (sqlStep codecs admits) db (commands.filterMap ReportCommand.request?) ∧
    ∃ left, Coherent (run (reportStep codecs admits) db commands) left ∧
      ∀ date, kept date <+: left date := by
  induction commands generalizing db kept with
  | nil => exact ⟨rfl, kept, h, fun _ => List.prefix_rfl⟩
  | cons command commands ih =>
    rw [run_cons]
    cases command with
    | append request =>
      obtain ⟨grown, hgrown, hfirst⟩ := append_grows codecs admits h request
      rw [attempt_append]
      obtain ⟨hrun, left, hleft, hrest⟩ := ih hgrown
      exact ⟨hrun, left, hleft, fun date => (hfirst date).trans (hrest date)⟩
    | expire observedAt =>
      rw [attempt_expire codecs admits h]
      exact ih h

/-- Over any run of appends and expiries the tables are those of the appends alone, every
    date with a lawful history; an expiry of them succeeds exactly when the retention of
    no stored manifest has elapsed, and then it changes nothing. -/
theorem expiry_succeeds_iff (commands : List ReportCommand) (observedAt : Instant) :
    run (reportStep codecs admits) emptyTables commands =
      tablesAfter codecs admits (commands.filterMap ReportCommand.request?) ∧
    (∀ date, Lawful date ((run (reportStep codecs admits) emptyTables commands).history date)) ∧
    ((∃ t, expireReports (run (reportStep codecs admits) emptyTables commands) observedAt = .ok t) ↔
      ∀ row ∈ (run (reportStep codecs admits) emptyTables commands).manifests,
        observedAt < row.retainUntil) ∧
    ∀ t, expireReports (run (reportStep codecs admits) emptyTables commands) observedAt = .ok t →
      t = run (reportStep codecs admits) emptyTables commands := by
  obtain ⟨hrun, kept, h, _⟩ := run_appends codecs admits coherent_empty commands
  change Coherent (run (reportStep codecs admits) emptyTables commands) kept at h
  refine ⟨hrun, fun date => ?_, ?_, ?_⟩
  · rw [h.history]
    exact lawful h date
  · rw [← lockExpired_eq_nil]
    cases hdue : lockExpiredManifestRows
        (run (reportStep codecs admits) emptyTables commands) observedAt with
    | nil => exact iff_of_true ⟨_, expireReports_quiet hdue⟩ rfl
    | cons first others =>
      refine iff_of_false ?_ (List.cons_ne_nil first others)
      rintro ⟨t, ht⟩
      rw [expireReports_due h hdue] at ht
      cases ht
  · intro t ht
    cases hdue : lockExpiredManifestRows
        (run (reportStep codecs admits) emptyTables commands) observedAt with
    | nil =>
      rw [expireReports_quiet hdue] at ht
      exact (Except.ok.inj ht).symm
    | cons first others =>
      rw [expireReports_due h hdue] at ht
      cases ht

/-- No run removes a stored version, and once the retention of one has elapsed every expiry
    fails: on the immutable successor of the first manifest in the order of expiry, where
    its version has one, and else on the foreign key of that manifest. -/
theorem stored_versions_stay (h : Coherent db kept) (commands : List ReportCommand) :
    (∀ date, db.history date <+: (run (reportStep codecs admits) db commands).history date) ∧
    ∀ observedAt, (∃ row ∈ db.manifests, row.retainUntil ≤ observedAt) →
      ∃ first, (lockExpiredManifestRows (run (reportStep codecs admits) db commands)
        observedAt).head? = some first ∧
        expireReports (run (reportStep codecs admits) db commands) observedAt = .error
          (if ∃ row ∈ (run (reportStep codecs admits) db commands).versions.rows,
            row.supersedesVersionId = some first.reportVersionId
            then .immutableRow else .restricted) := by
  obtain ⟨_, left, hleft, hgrows⟩ := run_appends codecs admits h commands
  refine ⟨fun date => ?_, ?_⟩
  · rw [h.history, hleft.history]
    exact isPrefix_historyOf (hgrows date)
  · rintro observedAt ⟨row, hrow, helapsed⟩
    obtain ⟨version, hversion, rfl⟩ := h.manifest_mem hrow
    have hstays := hleft.mem_manifests ((isPrefix_historyOf (hgrows _)).subset hversion)
    cases hdue : lockExpiredManifestRows (run (reportStep codecs admits) db commands) observedAt with
    | nil => exact absurd helapsed (not_le.mpr (lockExpired_eq_nil.mp hdue _ hstays))
    | cons first others => exact ⟨first, rfl, expireReports_due hleft hdue⟩

end Runs

section Sample

def sampleDate : Date := ⟨0, by decide⟩

def sampleAppend (id : ℕ) (createdAt : Instant) : AppendReportRequest where
  reportId := 1
  versionId := BitVec.ofNat 128 id
  manifestId := BitVec.ofNat 128 id
  reportDateSeoul := sampleDate
  reportSchemaVersion := []
  inputSetHash := BitVec.ofNat 256 id
  createdAt := createdAt
  retainUntil := createdAt + seconds (reportRetentionDays * 86400)
  retained := ⟨⟨.gzip, [], 0, 0, 0⟩, [], 0⟩

def sampleAppends : List AppendReportRequest := [sampleAppend 1 0, sampleAppend 2 5]

def sampleFirst : StoredReportVersion := nextVersion none (sampleAppend 1 0)

def sampleSecond : StoredReportVersion := nextVersion (some sampleFirst) (sampleAppend 2 5)

def sampleTables : ReportTables where
  reports := ⟨[⟨1, sampleDate, some 2, 0⟩], by decide⟩
  versions := ⟨(historyOf sampleAppends).map rowOf, by decide⟩
  manifests := ⟨(historyOf sampleAppends).map manifestOf, by decide⟩

theorem sampleTables_coherent :
    Coherent sampleTables fun date => if date = sampleDate then sampleAppends else [] where
  dates := by
    intro date request hrequest
    split at hrequest
    · rename_i hdate
      rcases List.mem_pair.mp hrequest with rfl | rfl <;> exact hdate.symm
    · exact absurd hrequest List.not_mem_nil
  distinct := by
    intro date
    split
    · decide
    · exact List.nodup_nil
  versions := by
    intro date
    by_cases hdate : date = sampleDate
    · subst hdate
      rfl
    · rw [if_neg hdate]
      refine List.filter_eq_nil_iff.mpr fun row hrow hsame => hdate ?_
      rw [← of_decide_eq_true hsame]
      rcases List.mem_pair.mp hrow with rfl | rfl <;> rfl
  manifests := by
    intro date
    by_cases hdate : date = sampleDate
    · subst hdate
      rfl
    · rw [if_neg hdate]
      refine List.filter_eq_nil_iff.mpr fun row hrow hsame => hdate ?_
      rw [← of_decide_eq_true hsame]
      rcases List.mem_pair.mp hrow with rfl | rfl <;> rfl
  reports := by
    intro date
    by_cases hdate : date = sampleDate
    · subst hdate
      rfl
    · rw [if_neg hdate]
      refine (congrArg _ (List.filter_eq_nil_iff.mpr fun row hrow hsame => hdate ?_)).trans rfl
      rw [← of_decide_eq_true hsame, List.mem_singleton.mp hrow]

theorem stored_versions_stay_sample :
    [sampleFirst.versionId, sampleSecond.versionId] <+:
      ((run (reportStep sampleCodecs sampleAdmits) sampleTables
        [.expire (seconds (reportRetentionDays * 86400))]).history sampleDate).map (·.versionId) ∧
    expireReports (run (reportStep sampleCodecs sampleAdmits) sampleTables
      [.expire (seconds (reportRetentionDays * 86400))])
      (seconds (reportRetentionDays * 86400) + 5) = .error .immutableRow := by
  obtain ⟨hgrows, hfails⟩ := stored_versions_stay sampleCodecs sampleAdmits sampleTables_coherent
    [.expire (seconds (reportRetentionDays * 86400))]
  obtain ⟨first, hfirst, herror⟩ := hfails (seconds (reportRetentionDays * 86400) + 5)
    ⟨manifestOf sampleFirst, List.mem_cons_self, by decide⟩
  refine ⟨(hgrows sampleDate).map _, ?_⟩
  have hsame := attempt_expire sampleCodecs sampleAdmits sampleTables_coherent
    (seconds (reportRetentionDays * 86400))
  rw [run_cons, run_nil, hsame] at hfirst herror ⊢
  obtain rfl : manifestOf sampleFirst = first := Option.some.inj hfirst
  exact herror

end Sample

end PredictionMarketMonitor.ReportExpiry
