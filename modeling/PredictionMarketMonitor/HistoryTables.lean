import PredictionMarketMonitor.KeyedTable
import PredictionMarketMonitor.ReportHistory

set_option autoImplicit false

/-!
# Report history in tables

The SQL repository of `app/reporting/repository.py` beside the reference store: its
tables hold, date by date, a history that the reference store makes, and part from it
where their unique constraints refuse the return to an earlier input set.
-/
namespace PredictionMarketMonitor.HistoryTables

open CanonicalJson ChangeLogs CivilTime CollectionBase FallibleSteps KeyedTable ReportInputs
open ReportManifest ReportFormula ManifestRoundTrip ReportHistory Sha256

structure DailyReport where
  id : UUID
  reportDateSeoul : Date
  latestVersionId : Option UUID
  createdAt : Instant

structure DailyReportVersion where
  id : UUID
  reportId : UUID
  reportDateSeoul : Date
  revision : ℕ
  supersedesVersionId : Option UUID
  inputSetHash : Digest
  reportSchemaVersion : Text
  manifestId : UUID
  reportPayload : Bytes
  reportPayloadSha256 : Digest
  createdAt : Instant
  retainUntil : Instant

structure StoredManifest where
  id : UUID
  reportVersionId : UUID
  reportDateSeoul : Date
  reportRevision : ℕ
  schemaVersion : Text
  codec : ManifestCodec
  compressedPayload : Bytes
  uncompressedByteLength : ℕ
  manifestPayloadSha256 : Digest
  inputSetHash : Digest
  createdAt : Instant
  retainUntil : Instant

structure ReportTables where
  reports : Table DailyReport.id
  versions : Table DailyReportVersion.id
  manifests : Table StoredManifest.id

/-- Why an append fails: a constraint of the tables, retained input that does not
    verify, a retained manifest that is gone, or an error of the projection. -/
inductive StoreError
  | integrityError (constraint : String)
  | manifestIntegrity (reason : ReportFailure)
  | runtimeError (message : String)
  | raised (failure : ReportFailure)

def retained (manifest : StoredManifest) (version : DailyReportVersion) : RetainedReport where
  manifest := {
    codec := manifest.codec
    compressedPayload := manifest.compressedPayload
    uncompressedByteLength := manifest.uncompressedByteLength
    manifestPayloadSha256 := manifest.manifestPayloadSha256
    inputSetHash := manifest.inputSetHash }
  reportPayload := version.reportPayload
  reportPayloadSha256 := version.reportPayloadSha256

def stored (version : DailyReportVersion) (retainedReport : RetainedReport) : StoredReportVersion where
  reportId := version.reportId
  versionId := version.id
  manifestId := version.manifestId
  reportDateSeoul := version.reportDateSeoul
  revision := version.revision
  supersedesVersionId := version.supersedesVersionId
  reportSchemaVersion := version.reportSchemaVersion
  inputSetHash := version.inputSetHash
  createdAt := version.createdAt
  retainUntil := version.retainUntil
  retained := retainedReport

structure VersionAppendState where
  reportId : UUID
  revision : ℕ
  latest : Option DailyReportVersion

def versionRow (request : AppendReportRequest) (state : VersionAppendState) : DailyReportVersion where
  id := request.versionId
  reportId := state.reportId
  reportDateSeoul := request.reportDateSeoul
  revision := state.revision
  supersedesVersionId := state.latest.map (·.id)
  inputSetHash := request.inputSetHash
  reportSchemaVersion := request.reportSchemaVersion
  manifestId := request.manifestId
  reportPayload := request.retained.reportPayload
  reportPayloadSha256 := request.retained.reportPayloadSha256
  createdAt := request.createdAt
  retainUntil := request.retainUntil

def manifestRow (request : AppendReportRequest) (revision : ℕ) : StoredManifest where
  id := request.manifestId
  reportVersionId := request.versionId
  reportDateSeoul := request.reportDateSeoul
  reportRevision := revision
  schemaVersion := schemaName.toList
  codec := request.retained.manifest.codec
  compressedPayload := request.retained.manifest.compressedPayload
  uncompressedByteLength := request.retained.manifest.uncompressedByteLength
  manifestPayloadSha256 := request.retained.manifest.manifestPayloadSha256
  inputSetHash := request.retained.manifest.inputSetHash
  createdAt := request.createdAt
  retainUntil := request.retainUntil

namespace ReportTables

def checkVersion (db : ReportTables) (row : DailyReportVersion) : Except StoreError Unit := do
  require (row.createdAt < row.retainUntil) (.integrityError "report_retention_window")
  require (∀ other ∈ db.versions.rows,
      (other.reportDateSeoul, other.revision) ≠ (row.reportDateSeoul, row.revision))
    (.integrityError "uq_report_date_revision")
  require (∀ other ∈ db.versions.rows,
      (other.reportDateSeoul, other.inputSetHash, other.reportSchemaVersion) ≠
        (row.reportDateSeoul, row.inputSetHash, row.reportSchemaVersion))
    (.integrityError "uq_report_input_identity")
  require (∀ other ∈ db.versions.rows, other.manifestId ≠ row.manifestId)
    (.integrityError "uq_report_version_manifest")

def checkManifest (db : ReportTables) (row : StoredManifest) : Except StoreError Unit := do
  require (∀ other ∈ db.manifests.rows, other.reportVersionId ≠ row.reportVersionId)
    (.integrityError "uq_manifest_report_version")
  require (∀ other ∈ db.manifests.rows,
      (other.reportDateSeoul, other.inputSetHash, other.schemaVersion) ≠
        (row.reportDateSeoul, row.inputSetHash, row.schemaVersion))
    (.integrityError "uq_manifest_input_identity")

def pointTo (db : ReportTables) (report : Option DailyReport) (request : AppendReportRequest) :
    Option (Table DailyReport.id) :=
  match report with
  | some report => some (db.reports.update report.id
      (fun row => { row with latestVersionId := some request.versionId }) fun _ => rfl)
  | none => db.reports.insert? {
      id := request.reportId
      reportDateSeoul := request.reportDateSeoul
      latestVersionId := some request.versionId
      createdAt := request.createdAt }

/-- The rows of an append: version, manifest and pointer, when every constraint holds. -/
def insertVersion (db : ReportTables) (report : Option DailyReport)
    (latest : Option DailyReportVersion) (request : AppendReportRequest) :
    Except StoreError (ReportTables × DailyReportVersion) := do
  let revision := match latest with
    | none => 1
    | some version => version.revision + 1
  let version := versionRow request ⟨(report.map (·.id)).getD request.reportId, revision, latest⟩
  let manifest := manifestRow request revision
  db.checkVersion version
  db.checkManifest manifest
  let reports ← present (db.pointTo report request) (.integrityError "pk_daily_reports")
  let versions ← present (db.versions.insert? version) (.integrityError "pk_daily_report_versions")
  let manifests ← present (db.manifests.insert? manifest)
    (.integrityError "pk_report_input_manifests")
  return (⟨reports, versions, manifests⟩, version)

end ReportTables

section Append
variable (codecs : Codecs)
-- the column types, the checks of the displayed scalars and the live links of the items
variable (admits : AppendReportRequest → ReportInputManifest → DailyReportPayload → Bool)

/-- The retained artifacts of a request are replayed before they are stored. -/
def verifyRetained (request : AppendReportRequest) :
    Except StoreError (ReportInputManifest × DailyReportPayload) :=
  match reproduceReport codecs request.retained with
  | .error e => .error (.raised e)
  | .ok (.manifestCorrupt reason) => .error (.manifestIntegrity reason)
  | .ok (.reproduced _ _ _) => do
    let payload ← (readManifest codecs.nf codecs.gzip codecs.manifests
      request.retained.manifest).mapError .raised
    let projected ← present (codecs.reports.decode request.retained.reportPayload)
      (.raised .validationError)
    return (payload, projected)

/-- `_append_locked` of a report row that has been read under the lock of its date. -/
def appendLocked (db : ReportTables) (report : Option DailyReport) (request : AppendReportRequest) :
    Except StoreError (ReportTables × AppendReportOutcome) :=
  let latest := (report.bind (·.latestVersionId)).bind db.versions.find?
  match latest.filter (fun version => version.reportSchemaVersion = request.reportSchemaVersion ∧
      version.inputSetHash = request.inputSetHash) with
  | some version => do
    let manifest ← present (db.manifests.find? version.manifestId)
      (.runtimeError "retained_manifest_missing")
    return (db, ⟨stored version (retained manifest version), false⟩)
  | none => do
    let (payload, projected) ← verifyRetained codecs request
    require (admits request payload projected = true) (.integrityError "row refused")
    let (db, version) ← db.insertVersion report latest request
    return (db, ⟨stored version request.retained, true⟩)

/-- `append_in_session`: the report row of the date is read under its lock. -/
def appendInSession (db : ReportTables) (request : AppendReportRequest) :
    Except StoreError (ReportTables × AppendReportOutcome) :=
  appendLocked codecs admits db
    (db.reports.rows.find? fun row => row.reportDateSeoul = request.reportDateSeoul) request

def sqlStep (db : ReportTables) (request : AppendReportRequest) : Except StoreError ReportTables := do
  let (db, _) ← appendInSession codecs admits db request
  return db

end Append

section Tables
variable {db : ReportTables} {kept : Date → List AppendReportRequest}
variable {request : AppendReportRequest}

def rowOf (version : StoredReportVersion) : DailyReportVersion where
  id := version.versionId
  reportId := version.reportId
  reportDateSeoul := version.reportDateSeoul
  revision := version.revision
  supersedesVersionId := version.supersedesVersionId
  inputSetHash := version.inputSetHash
  reportSchemaVersion := version.reportSchemaVersion
  manifestId := version.manifestId
  reportPayload := version.retained.reportPayload
  reportPayloadSha256 := version.retained.reportPayloadSha256
  createdAt := version.createdAt
  retainUntil := version.retainUntil

def manifestOf (version : StoredReportVersion) : StoredManifest where
  id := version.manifestId
  reportVersionId := version.versionId
  reportDateSeoul := version.reportDateSeoul
  reportRevision := version.revision
  schemaVersion := schemaName.toList
  codec := version.retained.manifest.codec
  compressedPayload := version.retained.manifest.compressedPayload
  uncompressedByteLength := version.retained.manifest.uncompressedByteLength
  manifestPayloadSha256 := version.retained.manifest.manifestPayloadSha256
  inputSetHash := version.retained.manifest.inputSetHash
  createdAt := version.createdAt
  retainUntil := version.retainUntil

theorem stored_rowOf (version : StoredReportVersion) :
    stored (rowOf version) (retained (manifestOf version) (rowOf version)) = version := rfl

/-- The rows of each date are the history that its kept requests make, and its
    pointer names the last of them. -/
structure Coherent (db : ReportTables) (kept : Date → List AppendReportRequest) : Prop where
  dates : ∀ date, ∀ request ∈ kept date, request.reportDateSeoul = date
  distinct : ∀ date, ((kept date).map AppendReportRequest.identity).Nodup
  versions : ∀ date, db.versions.rows.filter (fun row => row.reportDateSeoul = date) =
    (historyOf (kept date)).map rowOf
  manifests : ∀ date, db.manifests.rows.filter (fun row => row.reportDateSeoul = date) =
    (historyOf (kept date)).map manifestOf
  reports : ∀ date, (db.reports.rows.filter fun row => row.reportDateSeoul = date).map
      (fun row => (row.id, row.latestVersionId)) =
    (historyOf (kept date)).getLast?.toList.map fun last => (last.reportId, some last.versionId)

theorem coherent_empty : Coherent ⟨Table.empty, Table.empty, Table.empty⟩ fun _ => [] where
  dates := fun _ _ h => absurd h List.not_mem_nil
  distinct := fun _ => List.nodup_nil
  versions := fun _ => rfl
  manifests := fun _ => rfl
  reports := fun _ => rfl

theorem Coherent.mem_versions (h : Coherent db kept) {date : Date} {version : StoredReportVersion}
    (hversion : version ∈ historyOf (kept date)) : rowOf version ∈ db.versions := by
  have hmem := List.mem_map_of_mem (f := rowOf) hversion
  rw [← h.versions date] at hmem
  exact (List.mem_filter.mp hmem).1

theorem Coherent.mem_manifests (h : Coherent db kept) {date : Date} {version : StoredReportVersion}
    (hversion : version ∈ historyOf (kept date)) : manifestOf version ∈ db.manifests := by
  have hmem := List.mem_map_of_mem (f := manifestOf) hversion
  rw [← h.manifests date] at hmem
  exact (List.mem_filter.mp hmem).1

theorem Coherent.row_mem (h : Coherent db kept) {row : DailyReportVersion}
    (hrow : row ∈ db.versions.rows) :
    ∃ version ∈ historyOf (kept row.reportDateSeoul), rowOf version = row := by
  have hmem : row ∈ db.versions.rows.filter fun other => other.reportDateSeoul = row.reportDateSeoul :=
    List.mem_filter.mpr ⟨hrow, decide_eq_true rfl⟩
  rw [h.versions] at hmem
  exact List.mem_map.mp hmem

theorem Coherent.manifest_mem (h : Coherent db kept) {row : StoredManifest}
    (hrow : row ∈ db.manifests.rows) :
    ∃ version ∈ historyOf (kept row.reportDateSeoul), manifestOf version = row := by
  have hmem : row ∈ db.manifests.rows.filter fun other => other.reportDateSeoul = row.reportDateSeoul :=
    List.mem_filter.mpr ⟨hrow, decide_eq_true rfl⟩
  rw [h.manifests] at hmem
  exact List.mem_map.mp hmem

def lockedReport (db : ReportTables) (date : Date) : Option DailyReport :=
  db.reports.rows.find? fun row => row.reportDateSeoul = date

theorem Coherent.locked (h : Coherent db kept) (date : Date) :
    (lockedReport db date).map (fun row => (row.id, row.latestVersionId)) =
      (historyOf (kept date)).getLast?.map fun last => (last.reportId, some last.versionId) := by
  have hreports := congrArg List.head? (h.reports date)
  rw [List.head?_map, List.head?_filter] at hreports
  rw [lockedReport, hreports]
  cases (historyOf (kept date)).getLast? <;> rfl

def latestRow (db : ReportTables) (date : Date) : Option DailyReportVersion :=
  ((lockedReport db date).bind (·.latestVersionId)).bind db.versions.find?

theorem Coherent.latest (h : Coherent db kept) (date : Date) :
    latestRow db date = (historyOf (kept date)).getLast?.map rowOf := by
  have hlocked := h.locked date
  rw [latestRow]
  cases hlast : (historyOf (kept date)).getLast? with
  | none =>
    rw [hlast] at hlocked
    rw [Option.map_eq_none_iff.mp hlocked]
    rfl
  | some last =>
    rw [hlast] at hlocked
    obtain ⟨row, hrow, heq⟩ := Option.map_eq_some_iff.mp hlocked
    obtain ⟨_, hpointer⟩ := Prod.mk.inj heq
    rw [hrow, Option.bind_some, hpointer, Option.bind_some, Option.map_some]
    exact Table.find?_of_mem (h.mem_versions (List.mem_of_getLast? hlast))

structure Accepts (db : ReportTables) (request : AppendReportRequest) : Prop where
  window : request.createdAt < request.retainUntil
  identity : ∀ row ∈ db.versions.rows, row.reportDateSeoul = request.reportDateSeoul →
    (row.reportSchemaVersion, row.inputSetHash) ≠ request.identity
  manifestIdentity : ∀ row ∈ db.manifests.rows, row.reportDateSeoul = request.reportDateSeoul →
    row.schemaVersion = schemaName.toList →
    row.inputSetHash ≠ request.retained.manifest.inputSetHash
  versionId : ∀ row ∈ db.versions.rows, row.id ≠ request.versionId
  manifestId : ∀ row ∈ db.manifests.rows, row.id ≠ request.manifestId
  versionManifest : ∀ row ∈ db.versions.rows, row.manifestId ≠ request.manifestId
  manifestVersion : ∀ row ∈ db.manifests.rows, row.reportVersionId ≠ request.versionId
  reportId : lockedReport db request.reportDateSeoul = none →
    ∀ row ∈ db.reports.rows, row.id ≠ request.reportId

theorem nextVersion_row (latest : Option StoredReportVersion) (request : AppendReportRequest) :
    versionRow request ⟨(latest.map (·.reportId)).getD request.reportId,
      (match latest.map rowOf with
        | none => 1
        | some version => version.revision + 1), latest.map rowOf⟩ =
      rowOf (nextVersion latest request) := by
  cases latest <;> rfl

theorem nextVersion_manifest (latest : Option StoredReportVersion) (request : AppendReportRequest) :
    manifestRow request (match latest.map rowOf with
        | none => 1
        | some version => version.revision + 1) = manifestOf (nextVersion latest request) := by
  cases latest <;> rfl

def proposed (kept : Date → List AppendReportRequest) (request : AppendReportRequest) :
    StoredReportVersion :=
  nextVersion (historyOf (kept request.reportDateSeoul)).getLast? request

theorem Coherent.revision_free (h : Coherent db kept) {row : DailyReportVersion}
    (hrow : row ∈ db.versions.rows) (hdate : row.reportDateSeoul = request.reportDateSeoul) :
    row.revision ≠ (proposed kept request).revision := by
  obtain ⟨version, hversion, rfl⟩ := h.row_mem hrow
  have hdate : version.reportDateSeoul = request.reportDateSeoul := hdate
  change version ∈ historyOf (kept version.reportDateSeoul) at hversion
  rw [hdate] at hversion
  have hrevisions := historyOf_revisions (kept request.reportDateSeoul)
  have hmem := List.mem_map_of_mem (f := fun version => version.revision) hversion
  rw [hrevisions, List.mem_range'_1] at hmem
  rw [proposed, nextVersion_revision hrevisions]
  have hrow : (rowOf version).revision = version.revision := rfl
  omega

theorem pointTo_eq_some {report : Option DailyReport} {reports : Table DailyReport.id} :
    db.pointTo report request = some reports ↔
      (∀ row, report = some row → reports = db.reports.update row.id
        (fun row => { row with latestVersionId := some request.versionId }) fun _ => rfl) ∧
      (report = none → db.reports.find? request.reportId = none ∧
        reports.rows = db.reports.rows ++ [{
          id := request.reportId
          reportDateSeoul := request.reportDateSeoul
          latestVersionId := some request.versionId
          createdAt := request.createdAt }]) := by
  cases report with
  | none =>
    rw [ReportTables.pointTo, Table.insert?_eq_some]
    simp
  | some row =>
    rw [ReportTables.pointTo]
    simp [eq_comm]

structure Writes (db t : ReportTables) (kept : Date → List AppendReportRequest)
    (request : AppendReportRequest) : Prop where
  versions : t.versions.rows = db.versions.rows ++ [rowOf (proposed kept request)]
  manifests : t.manifests.rows = db.manifests.rows ++ [manifestOf (proposed kept request)]
  reports : db.pointTo (lockedReport db request.reportDateSeoul) request = some t.reports

theorem checkVersion_eq_ok {row : DailyReportVersion} : db.checkVersion row = .ok () ↔
    row.createdAt < row.retainUntil ∧
    (∀ other ∈ db.versions.rows,
      (other.reportDateSeoul, other.revision) ≠ (row.reportDateSeoul, row.revision)) ∧
    (∀ other ∈ db.versions.rows,
      (other.reportDateSeoul, other.inputSetHash, other.reportSchemaVersion) ≠
        (row.reportDateSeoul, row.inputSetHash, row.reportSchemaVersion)) ∧
    ∀ other ∈ db.versions.rows, other.manifestId ≠ row.manifestId := by
  rw [ReportTables.checkVersion, require_bind, require_bind, require_bind, require_eq_ok]

theorem checkManifest_eq_ok {row : StoredManifest} : db.checkManifest row = .ok () ↔
    (∀ other ∈ db.manifests.rows, other.reportVersionId ≠ row.reportVersionId) ∧
    ∀ other ∈ db.manifests.rows,
      (other.reportDateSeoul, other.inputSetHash, other.schemaVersion) ≠
        (row.reportDateSeoul, row.inputSetHash, row.schemaVersion) := by
  rw [ReportTables.checkManifest, require_bind, require_eq_ok]

theorem insertVersion_eq_ok (h : Coherent db kept) {t : ReportTables} {row : DailyReportVersion} :
    db.insertVersion (lockedReport db request.reportDateSeoul)
        (latestRow db request.reportDateSeoul) request = .ok (t, row) ↔
      Accepts db request ∧ Writes db t kept request ∧ row = rowOf (proposed kept request) := by
  have hlatest := h.latest request.reportDateSeoul
  have hreport : (lockedReport db request.reportDateSeoul).map (·.id) =
      (historyOf (kept request.reportDateSeoul)).getLast?.map (·.reportId) := by
    have hids := congrArg (Option.map Prod.fst) (h.locked request.reportDateSeoul)
    rwa [Option.map_map, Option.map_map] at hids
  have hversion : versionRow request
      ⟨((lockedReport db request.reportDateSeoul).map (·.id)).getD request.reportId,
        (match latestRow db request.reportDateSeoul with
          | none => 1
          | some version => version.revision + 1), latestRow db request.reportDateSeoul⟩ =
      rowOf (proposed kept request) := by
    rw [hlatest, hreport]
    exact nextVersion_row _ _
  have hmanifest : manifestRow request (match latestRow db request.reportDateSeoul with
      | none => 1
      | some version => version.revision + 1) = manifestOf (proposed kept request) := by
    rw [hlatest]
    exact nextVersion_manifest _ _
  have hunfold : db.insertVersion (lockedReport db request.reportDateSeoul)
      (latestRow db request.reportDateSeoul) request = (do
        db.checkVersion (rowOf (proposed kept request))
        db.checkManifest (manifestOf (proposed kept request))
        let reports ← present (db.pointTo (lockedReport db request.reportDateSeoul) request)
          (.integrityError "pk_daily_reports")
        let versions ← present (db.versions.insert? (rowOf (proposed kept request)))
          (.integrityError "pk_daily_report_versions")
        let manifests ← present (db.manifests.insert? (manifestOf (proposed kept request)))
          (.integrityError "pk_report_input_manifests")
        return (⟨reports, versions, manifests⟩, rowOf (proposed kept request))) := by
    rw [← hversion, ← hmanifest]
    rfl
  rw [hunfold]
  constructor
  · intro hok
    obtain ⟨_, hcheck, hok⟩ := bind_eq_ok.mp hok
    obtain ⟨_, hmanifests, hok⟩ := bind_eq_ok.mp hok
    obtain ⟨reports, hpoint, hok⟩ := bind_eq_ok.mp hok
    obtain ⟨versions, hversions, hok⟩ := bind_eq_ok.mp hok
    obtain ⟨manifests, hinserted, hok⟩ := bind_eq_ok.mp hok
    obtain ⟨rfl, rfl⟩ := Prod.mk.inj (Except.ok.inj hok)
    obtain ⟨hwindow, _, hidentity, hmanifestId⟩ := checkVersion_eq_ok.mp hcheck
    obtain ⟨hmanifestVersion, hmanifestIdentity⟩ := checkManifest_eq_ok.mp hmanifests
    have hpoint := present_eq_ok.mp hpoint
    obtain ⟨hfreshVersion, hrows⟩ := Table.insert?_eq_some.mp (present_eq_ok.mp hversions)
    obtain ⟨hfreshManifest, hmanifestRows⟩ := Table.insert?_eq_some.mp (present_eq_ok.mp hinserted)
    refine ⟨⟨hwindow, fun row hrow hdate hsame => ?_, fun row hrow hdate hschema hsame => ?_,
      fun row hrow => Table.find?_eq_none.mp hfreshVersion row hrow,
      fun row hrow => Table.find?_eq_none.mp hfreshManifest row hrow, hmanifestId,
      hmanifestVersion, fun hnone row hrow => ?_⟩, ⟨hrows, hmanifestRows, hpoint⟩, rfl⟩
    · obtain ⟨hschema, hhash⟩ := Prod.mk.inj hsame
      exact hidentity row hrow (by rw [hdate, hhash, hschema]; rfl)
    · exact hmanifestIdentity row hrow (by rw [hdate, hschema, hsame]; rfl)
    · exact Table.find?_eq_none.mp ((pointTo_eq_some.mp hpoint).2 hnone).1 row hrow
  · rintro ⟨haccepts, hwrites, rfl⟩
    obtain ⟨versions, hversions⟩ := Table.exists_insert (t := db.versions)
      (a := rowOf (proposed kept request)) (Table.find?_eq_none.mpr haccepts.versionId)
    obtain ⟨manifests, hmanifests⟩ := Table.exists_insert (t := db.manifests)
      (a := manifestOf (proposed kept request)) (Table.find?_eq_none.mpr haccepts.manifestId)
    have hcheck : db.checkVersion (rowOf (proposed kept request)) = .ok () := by
      refine checkVersion_eq_ok.mpr ⟨haccepts.window, fun row hrow hsame => ?_,
        fun row hrow hsame => ?_, haccepts.versionManifest⟩
      · obtain ⟨hdate, hrevision⟩ := Prod.mk.inj hsame
        exact h.revision_free hrow hdate hrevision
      · obtain ⟨hdate, hsame⟩ := Prod.mk.inj hsame
        obtain ⟨hhash, hschema⟩ := Prod.mk.inj hsame
        exact haccepts.identity row hrow hdate (by rw [hschema, hhash]; rfl)
    have hcheckManifest : db.checkManifest (manifestOf (proposed kept request)) = .ok () := by
      refine checkManifest_eq_ok.mpr ⟨haccepts.manifestVersion, fun row hrow hsame => ?_⟩
      obtain ⟨hdate, hsame⟩ := Prod.mk.inj hsame
      obtain ⟨hhash, hschema⟩ := Prod.mk.inj hsame
      exact haccepts.manifestIdentity row hrow hdate hschema hhash
    have htables : (⟨t.reports, versions, manifests⟩ : ReportTables) = t := by
      obtain ⟨reports, ⟨versionRows, hversionRows⟩, ⟨manifestRows, hmanifestRows⟩⟩ := t
      obtain ⟨inserted, hinserted⟩ := versions
      obtain ⟨insertedManifests, hinsertedManifests⟩ := manifests
      obtain rfl := (Table.insert?_eq_some.mp hversions).2.trans hwrites.versions.symm
      obtain rfl := (Table.insert?_eq_some.mp hmanifests).2.trans hwrites.manifests.symm
      rfl
    refine bind_eq_ok.mpr ⟨(), hcheck, bind_eq_ok.mpr ⟨(), hcheckManifest, bind_eq_ok.mpr
      ⟨t.reports, present_eq_ok.mpr hwrites.reports, bind_eq_ok.mpr ⟨versions,
        present_eq_ok.mpr hversions, bind_eq_ok.mpr ⟨manifests, present_eq_ok.mpr hmanifests, ?_⟩⟩⟩⟩⟩
    rw [htables]
    rfl

end Tables

section Steps
variable {db t : ReportTables} {kept : Date → List AppendReportRequest}
variable {request : AppendReportRequest}

def keep (kept : Date → List AppendReportRequest) (request : AppendReportRequest) :
    Date → List AppendReportRequest :=
  Function.update kept request.reportDateSeoul (kept request.reportDateSeoul ++ [request])

theorem historyOf_keep (kept : Date → List AppendReportRequest) (request : AppendReportRequest)
    (date : Date) : historyOf (keep kept request date) = historyOf (kept date) ++
      if request.reportDateSeoul = date then [proposed kept request] else [] := by
  rw [keep]
  by_cases h : date = request.reportDateSeoul
  · subst h
    rw [Function.update_self, historyOf_concat, if_pos rfl]
    rfl
  · rw [Function.update_of_ne h, if_neg (Ne.symm h), List.append_nil]

theorem filter_concat {α : Type} {date : α → Date} (rows : List α) (row : α) (d : Date) :
    (rows ++ [row]).filter (fun r => date r = d) =
      rows.filter (fun r => date r = d) ++ if date row = d then [row] else [] := by
  rw [List.filter_append]
  by_cases h : date row = d <;> simp [h]

theorem Writes.pointers (hwrites : Writes db t kept request) (h : Coherent db kept) (date : Date) :
    (t.reports.rows.filter fun row => row.reportDateSeoul = date).map
        (fun row => (row.id, row.latestVersionId)) =
      if request.reportDateSeoul = date then
        [((proposed kept request).reportId, some request.versionId)]
      else (db.reports.rows.filter fun row => row.reportDateSeoul = date).map
        fun row => (row.id, row.latestVersionId) := by
  obtain ⟨hsome, hnone⟩ := pointTo_eq_some.mp hwrites.reports
  have hlocked := h.locked request.reportDateSeoul
  cases hreport : lockedReport db request.reportDateSeoul with
  | none =>
    obtain ⟨_, hrows⟩ := hnone hreport
    have hempty : db.reports.rows.filter (fun row => row.reportDateSeoul = request.reportDateSeoul) =
        [] := List.filter_eq_nil_iff.mpr (List.find?_eq_none.mp hreport)
    rw [hreport, Option.map_none, eq_comm, Option.map_eq_none_iff] at hlocked
    rw [hrows, filter_concat]
    split
    · rename_i hdate
      have hsame : request.reportDateSeoul = date := hdate
      rw [← hsame, hempty, proposed, hlocked]
      rfl
    · rw [List.append_nil]
  | some report =>
    have hrows : t.reports.rows = db.reports.rows.map fun row =>
        if row.id = report.id then { row with latestVersionId := some request.versionId } else row := by
      rw [hsome report hreport]
      rfl
    have hmem : report ∈ db.reports := List.mem_of_find?_eq_some hreport
    have hdate : report.reportDateSeoul = request.reportDateSeoul := by
      simpa using List.find?_some hreport
    have hcomp : ((fun row : DailyReport => decide (row.reportDateSeoul = date)) ∘ fun row =>
        if row.id = report.id then { row with latestVersionId := some request.versionId } else row) =
        fun row => decide (row.reportDateSeoul = date) := by
      funext row
      rw [Function.comp_apply]
      split <;> rfl
    rw [hrows, List.filter_map, hcomp, List.map_map]
    split
    · rename_i hsame
      rw [← hsame]
      have hreports := h.reports request.reportDateSeoul
      rw [hreport, Option.map_some] at hlocked
      obtain ⟨last, hlast, hpair⟩ := Option.map_eq_some_iff.mp hlocked.symm
      obtain ⟨hid, _⟩ := Prod.mk.inj hpair
      rw [hlast] at hreports
      obtain ⟨row, hsingle, hpointer⟩ := List.map_eq_singleton_iff.mp hreports
      have hrow : row = report := by
        have hhead := congrArg List.head? hsingle
        rw [List.head?_filter] at hhead
        exact (Option.some.inj (hreport.symm.trans hhead)).symm
      rw [hsingle, hrow, List.map_singleton, Function.comp_apply, if_pos rfl, proposed, hlast]
      exact congrArg (fun id => [(id, some request.versionId)]) hid.symm
    · rename_i hne
      refine List.map_congr_left fun row hrow => ?_
      obtain ⟨hrow, hrowDate⟩ := List.mem_filter.mp hrow
      have hother : row.id ≠ report.id := fun heq => hne (by
        rw [← hdate, ← Table.eq_of_key hrow hmem heq]
        exact of_decide_eq_true hrowDate)
      rw [Function.comp_apply, if_neg hother]

theorem Coherent.append (h : Coherent db kept) (haccepts : Accepts db request)
    (hwrites : Writes db t kept request) : Coherent t (keep kept request) := by
  refine ⟨?_, ?_, ?_, ?_, ?_⟩
  · intro date other hother
    rw [keep] at hother
    by_cases hsame : date = request.reportDateSeoul
    · subst hsame
      rw [Function.update_self] at hother
      rcases List.mem_append.mp hother with hold | hnew
      · exact h.dates _ other hold
      · rw [List.mem_singleton.mp hnew]
    · rw [Function.update_of_ne hsame] at hother
      exact h.dates date other hother
  · intro date
    rw [keep]
    by_cases hsame : date = request.reportDateSeoul
    · subst hsame
      rw [Function.update_self, List.map_append]
      refine List.nodup_append.mpr ⟨h.distinct _, List.nodup_singleton _, fun k hk j hj hkj => ?_⟩
      rw [List.map_singleton, List.mem_singleton] at hj
      subst hj hkj
      rw [← historyOf_identities] at hk
      obtain ⟨version, hversion, hidentity⟩ := List.mem_map.mp hk
      have hrow := h.mem_versions hversion
      have hrowDate : version.reportDateSeoul = request.reportDateSeoul := by
        have hmem := List.mem_map_of_mem (f := rowOf) hversion
        rw [← h.versions] at hmem
        exact of_decide_eq_true (List.mem_filter.mp hmem).2
      exact haccepts.identity (rowOf version) hrow hrowDate hidentity
    · rw [Function.update_of_ne hsame]
      exact h.distinct date
  · intro date
    rw [hwrites.versions, filter_concat, h.versions, historyOf_keep, List.map_append]
    congr 1
    change (if request.reportDateSeoul = date then _ else _) = _
    split <;> rfl
  · intro date
    rw [hwrites.manifests, filter_concat, h.manifests, historyOf_keep, List.map_append]
    congr 1
    change (if request.reportDateSeoul = date then _ else _) = _
    split <;> rfl
  · intro date
    rw [hwrites.pointers h, historyOf_keep]
    split
    · rw [List.getLast?_concat]
      rfl
    · rw [List.append_nil]
      exact h.reports date

end Steps

section Transactions
variable {codecs : Codecs}
variable {admits : AppendReportRequest → ReportInputManifest → DailyReportPayload → Bool}
variable {db t : ReportTables} {kept : Date → List AppendReportRequest}
variable {request : AppendReportRequest} {outcome : AppendReportOutcome}

/-- The retained artifacts replay and the row is one that the columns admit. -/
def Replays (codecs : Codecs)
    (admits : AppendReportRequest → ReportInputManifest → DailyReportPayload → Bool)
    (request : AppendReportRequest) : Prop :=
  ∃ payload projected, verifyRetained codecs request = .ok (payload, projected) ∧
    admits request payload projected = true

theorem replays_iff {payload : ReportInputManifest} {projected : DailyReportPayload}
    (h : verifyRetained codecs request = .ok (payload, projected)) :
    Replays codecs admits request ↔ admits request payload projected = true := by
  constructor
  · rintro ⟨otherPayload, otherProjected, hother, hadmits⟩
    obtain ⟨rfl, rfl⟩ := Prod.mk.inj (Except.ok.inj (h.symm.trans hother))
    exact hadmits
  · exact fun hadmits => ⟨payload, projected, h, hadmits⟩

instance : Decidable (Replays codecs admits request) :=
  match h : verifyRetained codecs request with
  | .error _ => .isFalse fun ⟨_, _, hok, _⟩ => by
    rw [h] at hok
    cases hok
  | .ok (_, _) => decidable_of_iff _ (replays_iff h).symm

def currentOf (kept : Date → List AppendReportRequest) (request : AppendReportRequest) :
    Option StoredReportVersion :=
  current? (historyOf (kept request.reportDateSeoul)).getLast? request

/-- What one transaction does: it returns the current version when the request is
    what that version already is, and else appends when the tables accept the row. -/
theorem appendInSession_iff (h : Coherent db kept) :
    appendInSession codecs admits db request = .ok (t, outcome) ↔
      (∃ version, currentOf kept request = some version ∧ t = db ∧ outcome = ⟨version, false⟩) ∨
      (currentOf kept request = none ∧ Replays codecs admits request ∧ Accepts db request ∧
        Writes db t kept request ∧ outcome = ⟨proposed kept request, true⟩) := by
  have hlatest := h.latest request.reportDateSeoul
  have hfilter : (latestRow db request.reportDateSeoul).filter (fun version =>
      version.reportSchemaVersion = request.reportSchemaVersion ∧
        version.inputSetHash = request.inputSetHash) = (currentOf kept request).map rowOf := by
    rw [hlatest, currentOf, current?]
    cases (historyOf (kept request.reportDateSeoul)).getLast? with
    | none => rfl
    | some version =>
      rw [Option.map_some, Option.filter_some, Option.filter_some, apply_ite (Option.map rowOf)]
      rfl
  have hunfold : appendInSession codecs admits db request =
      match (currentOf kept request).map rowOf with
      | some version => do
        let manifest ← present (db.manifests.find? version.manifestId)
          (.runtimeError "retained_manifest_missing")
        return (db, ⟨stored version (retained manifest version), false⟩)
      | none => do
        let (payload, projected) ← verifyRetained codecs request
        require (admits request payload projected = true) (.integrityError "row refused")
        let (db, version) ← db.insertVersion (lockedReport db request.reportDateSeoul)
          (latestRow db request.reportDateSeoul) request
        return (db, ⟨stored version request.retained, true⟩) := by
    rw [← hfilter]
    rfl
  rw [hunfold]
  cases hcurrent : currentOf kept request with
  | some version =>
    have hmem := List.mem_of_getLast? (current?_eq_some.mp hcurrent).1
    have hmanifest : db.manifests.find? (rowOf version).manifestId = some (manifestOf version) :=
      Table.find?_of_mem (h.mem_manifests hmem)
    rw [Option.map_some]
    simp only [hmanifest, present, ok_bind, stored_rowOf]
    constructor
    · intro hok
      obtain ⟨rfl, rfl⟩ := Prod.mk.inj (Except.ok.inj hok)
      exact .inl ⟨version, rfl, rfl, rfl⟩
    · rintro (⟨found, hfound, rfl, rfl⟩ | ⟨hnone, _⟩)
      · rw [Option.some.inj hfound]
        rfl
      · exact absurd hnone (by simp)
  | none =>
    rw [Option.map_none]
    simp only
    constructor
    · intro hok
      obtain ⟨⟨payload, projected⟩, hverified, hok⟩ := bind_eq_ok.mp hok
      obtain ⟨hadmits, hok⟩ := require_bind.mp hok
      obtain ⟨⟨tables, row⟩, hinserted, hok⟩ := bind_eq_ok.mp hok
      obtain ⟨rfl, rfl⟩ := Prod.mk.inj (Except.ok.inj hok)
      obtain ⟨haccepts, hwrites, rfl⟩ := (insertVersion_eq_ok h).mp hinserted
      exact .inr ⟨trivial, ⟨payload, projected, hverified, hadmits⟩, haccepts, hwrites, rfl⟩
    · rintro (⟨found, hfound, _⟩ | ⟨_, ⟨payload, projected, hverified, hadmits⟩, haccepts, hwrites, rfl⟩)
      · exact absurd hfound (by simp)
      · exact bind_eq_ok.mpr ⟨(payload, projected), hverified, require_bind.mpr ⟨hadmits,
          bind_eq_ok.mpr ⟨(t, rowOf (proposed kept request)),
            (insertVersion_eq_ok h).mpr ⟨haccepts, hwrites, rfl⟩, rfl⟩⟩⟩

end Transactions

section Runs
variable (codecs : Codecs)
variable (admits : AppendReportRequest → ReportInputManifest → DailyReportPayload → Bool)

/-- The versions of a date that the tables retain, in the order of their rows. -/
def ReportTables.history (db : ReportTables) (date : Date) : List StoredReportVersion :=
  (db.versions.rows.filter fun row => row.reportDateSeoul = date).filterMap fun row =>
    (db.manifests.find? row.manifestId).map fun manifest => stored row (retained manifest row)

theorem Coherent.history {db : ReportTables} {kept : Date → List AppendReportRequest}
    (h : Coherent db kept) (date : Date) : db.history date = historyOf (kept date) := by
  have hrow : ∀ version ∈ historyOf (kept date), (db.manifests.find? (rowOf version).manifestId).map
      (fun manifest => stored (rowOf version) (retained manifest (rowOf version))) = some version := by
    intro version hversion
    have hfind : db.manifests.find? (rowOf version).manifestId = some (manifestOf version) :=
      Table.find?_of_mem (h.mem_manifests hversion)
    rw [hfind, Option.map_some, stored_rowOf]
  rw [ReportTables.history, h.versions, List.filterMap_map]
  calc (historyOf (kept date)).filterMap _
      = (historyOf (kept date)).filterMap some := List.filterMap_congr fun version hversion =>
        hrow version hversion
    _ = historyOf (kept date) := List.filterMap_some

def emptyTables : ReportTables := ⟨Table.empty, Table.empty, Table.empty⟩

/-- The tables after a sequence of transactions, of which the refused ones leave no trace. -/
def tablesAfter (requests : List AppendReportRequest) : ReportTables :=
  run (sqlStep codecs admits) emptyTables requests

def accepted (requests : List AppendReportRequest) : List AppendReportRequest :=
  requests.foldl (fun taken request =>
    match appendInSession codecs admits (tablesAfter codecs admits taken) request with
    | .ok _ => taken ++ [request]
    | .error _ => taken) []

variable {codecs admits}

theorem sqlStep_eq_ok {db t : ReportTables} {request : AppendReportRequest} :
    sqlStep codecs admits db request = .ok t ↔
      ∃ outcome, appendInSession codecs admits db request = .ok (t, outcome) := by
  rw [sqlStep, bind_eq_ok]
  constructor
  · rintro ⟨⟨found, outcome⟩, hok, h⟩
    obtain rfl := Except.ok.inj h
    exact ⟨outcome, hok⟩
  · rintro ⟨outcome, hok⟩
    exact ⟨(t, outcome), hok, rfl⟩

theorem tablesAfter_concat (requests : List AppendReportRequest) (request : AppendReportRequest) :
    tablesAfter codecs admits (requests ++ [request]) =
      attempt (sqlStep codecs admits) (tablesAfter codecs admits requests) request := by
  rw [tablesAfter, run_append]
  rfl

/-- Tables whose histories are those of the reference store after some requests. -/
structure Mirrors (db : ReportTables) (requests : List AppendReportRequest) : Prop where
  coherent : Coherent db fun date =>
    changed AppendReportRequest.identity (Histories.ofDate requests date)

theorem Mirrors.kept {db : ReportTables} {requests : List AppendReportRequest}
    (h : Mirrors db requests) (date : Date) :
    db.history date = (Histories.after requests).history date := by
  rw [h.coherent.history, Histories.history_after]

theorem keep_changed (requests : List AppendReportRequest) (request : AppendReportRequest)
    (hchange : currentOf (fun date => changed AppendReportRequest.identity
      (Histories.ofDate requests date)) request = none) :
    keep (fun date => changed AppendReportRequest.identity (Histories.ofDate requests date)) request =
      fun date => changed AppendReportRequest.identity
        (Histories.ofDate (requests ++ [request]) date) := by
  funext date
  rw [Histories.ofDate_concat]
  by_cases hsame : date = request.reportDateSeoul
  · subst hsame
    have hne := current?_eq_none.mp hchange
    rw [← List.getLast?_map, historyOf_identities, List.getLast?_map] at hne
    rw [keep, Function.update_self, if_pos rfl, changed_concat, pushChanged, if_neg hne]
  · rw [keep, Function.update_of_ne hsame, if_neg (Ne.symm hsame), List.append_nil]

theorem reused_changed (requests : List AppendReportRequest) (request : AppendReportRequest)
    {version : StoredReportVersion} (hcurrent : currentOf (fun date =>
      changed AppendReportRequest.identity (Histories.ofDate requests date)) request = some version)
    (date : Date) : changed AppendReportRequest.identity
        (Histories.ofDate (requests ++ [request]) date) =
      changed AppendReportRequest.identity (Histories.ofDate requests date) := by
  rw [Histories.ofDate_concat]
  by_cases hsame : date = request.reportDateSeoul
  · subst hsame
    obtain ⟨hlast, hidentity⟩ := current?_eq_some.mp hcurrent
    rw [if_pos rfl, changed_concat, pushChanged, if_pos]
    rw [← List.getLast?_map, ← historyOf_identities, List.getLast?_map, hlast, Option.map_some,
      hidentity]
  · rw [if_neg (Ne.symm hsame), List.append_nil]

/-- A transaction that succeeds keeps the tables in step with the reference store, and
    gives its outcome. -/
theorem Mirrors.step {db t : ReportTables} {requests : List AppendReportRequest}
    {request : AppendReportRequest} {outcome : AppendReportOutcome} (h : Mirrors db requests)
    (hok : appendInSession codecs admits db request = .ok (t, outcome)) :
    Mirrors t (requests ++ [request]) ∧
      ((Histories.after requests).appendIfChanged request).2 = outcome := by
  have hhistory := Histories.history_after requests request.reportDateSeoul
  have houtcome : ((Histories.after requests).appendIfChanged request).2 =
      (currentOf (fun date => changed AppendReportRequest.identity
        (Histories.ofDate requests date)) request).elim
        ⟨proposed (fun date => changed AppendReportRequest.identity
          (Histories.ofDate requests date)) request, true⟩ (fun version => ⟨version, false⟩) := by
    rw [Histories.appendIfChanged, Histories.history_setdefault, hhistory, currentOf, proposed]
    cases current? (historyOf (changed AppendReportRequest.identity
      (Histories.ofDate requests request.reportDateSeoul))).getLast? request <;> rfl
  rw [houtcome]
  rcases (appendInSession_iff h.coherent).mp hok with ⟨version, hcurrent, rfl, rfl⟩ |
    ⟨hcurrent, _, haccepts, hwrites, rfl⟩
  · rw [hcurrent]
    refine ⟨⟨?_⟩, rfl⟩
    have hsame : (fun date => changed AppendReportRequest.identity
        (Histories.ofDate (requests ++ [request]) date)) = fun date =>
        changed AppendReportRequest.identity (Histories.ofDate requests date) :=
      funext (reused_changed requests request hcurrent)
    rw [hsame]
    exact h.coherent
  · rw [hcurrent]
    exact ⟨⟨keep_changed requests request hcurrent ▸ h.coherent.append haccepts hwrites⟩, rfl⟩

theorem tablesAfter_accepted (requests : List AppendReportRequest) :
    tablesAfter codecs admits (accepted codecs admits requests) = tablesAfter codecs admits requests ∧
      Mirrors (tablesAfter codecs admits requests) (accepted codecs admits requests) ∧
      (accepted codecs admits requests).Sublist requests := by
  induction requests using List.reverseRecOn with
  | nil => exact ⟨rfl, ⟨coherent_empty⟩, .slnil⟩
  | append_singleton requests request ih =>
    obtain ⟨hsame, hmirrors, hsub⟩ := ih
    have haccepted : accepted codecs admits (requests ++ [request]) =
        match appendInSession codecs admits (tablesAfter codecs admits requests) request with
        | .ok _ => accepted codecs admits requests ++ [request]
        | .error _ => accepted codecs admits requests := by
      rw [← hsame, accepted, List.foldl_append]
      rfl
    rw [haccepted, tablesAfter_concat]
    cases happend : appendInSession codecs admits (tablesAfter codecs admits requests) request with
    | error e =>
      have hstep : sqlStep codecs admits (tablesAfter codecs admits requests) request = .error e := by
        rw [sqlStep, happend]
        rfl
      rw [attempt_of_error hstep]
      exact ⟨hsame, hmirrors, hsub.trans (List.sublist_append_left _ _)⟩
    | ok result =>
      obtain ⟨t, outcome⟩ := result
      have hstep := attempt_of_ok (sqlStep_eq_ok.mpr ⟨outcome, happend⟩)
      refine ⟨?_, ?_, hsub.append_right _⟩
      · rw [tablesAfter_concat, hsame]
      · rw [hstep]
        exact (hmirrors.step happend).1

end Runs

section Reconciliations
variable {codecs : Codecs}
variable {admits : AppendReportRequest → ReportInputManifest → DailyReportPayload → Bool}
variable {request : AppendReportRequest}

/-- A request that a reconciliation makes of a valid payload in normal form. -/
def Reconciled (codecs : Codecs) (request : AppendReportRequest) : Prop :=
  ∃ source : ReconcileRequest, source.payload.validateWindowsAndRecords = .ok () ∧
    source.payload.mapText codecs.nf = source.payload ∧ source.payload.records.length ≤ 2 ^ 53 ∧
    appendReportRequest codecs.nf codecs.gzip source = .ok request

/-- What a reconciliation promises of its request. -/
structure Sound (codecs : Codecs) (request : AppendReportRequest) : Prop where
  verified : ∃ payload projected, verifyRetained codecs request = .ok (payload, projected)
  window : request.createdAt < request.retainUntil
  schema : request.reportSchemaVersion = reportSchemaName.toList
  input : request.retained.manifest.inputSetHash = request.inputSetHash

theorem Reconciled.sound (h : Reconciled codecs request) : Sound codecs request := by
  obtain ⟨source, hvalid, htext, hfits, hrequest⟩ := h
  obtain ⟨build, hbuild, hrequest⟩ := bind_eq_ok.mp hrequest
  obtain rfl := Except.ok.inj hrequest
  have hrecomputed := recompute_retained hvalid htext hfits hbuild
  obtain ⟨payload, hread, hrest⟩ := bind_eq_ok.mp hrecomputed
  obtain ⟨found, _, hrest⟩ := bind_eq_ok.mp hrest
  obtain ⟨projected, hdecoded, _⟩ := bind_eq_ok.mp hrest
  obtain ⟨manifest, report, hmanifest, _, hreport, rfl⟩ := projectReport_iff.mp hbuild
  refine ⟨⟨payload, projected, ?_⟩, ?_, rfl, ?_⟩
  · have hreproduced : reproduceReport codecs (retainedOf ⟨manifest, report,
        CanonicalJson.canonicalBytes codecs.nf report.json,
        sha256 (CanonicalJson.canonicalBytes codecs.nf report.json)⟩) =
        .ok (.reproduced report (CanonicalJson.canonicalBytes codecs.nf report.json)
          (sha256 (CanonicalJson.canonicalBytes codecs.nf report.json))) := by
      rw [reproduceReport, hrecomputed]
      exact if_pos ⟨rfl, rfl, rfl, rfl⟩
    rw [verifyRetained, hreproduced]
    exact bind_eq_ok.mpr ⟨payload, by rw [hread]; rfl, bind_eq_ok.mpr ⟨projected, by
      rw [present_eq_ok] at hdecoded ⊢
      exact hdecoded, rfl⟩⟩
  · change source.createdAt < source.createdAt + seconds (reportRetentionDays * 86400)
    exact lt_add_of_pos_right _ (by decide)
  · change manifest.envelope.inputSetHash = report.inputSetHash
    exact (ReportAccounting.projectPayload_shows hreport).2.inputSet.symm

/-- The requests of a sequence bring identifiers of their own. -/
structure FreshIds (requests : List AppendReportRequest) : Prop where
  versions : (requests.map (·.versionId)).Nodup
  manifests : (requests.map (·.manifestId)).Nodup
  reports : (requests.map (·.reportId)).Nodup

theorem FreshIds.sublist {requests others : List AppendReportRequest} (h : FreshIds requests)
    (hsub : others.Sublist requests) : FreshIds others :=
  ⟨h.versions.sublist (hsub.map _), h.manifests.sublist (hsub.map _), h.reports.sublist (hsub.map _)⟩

theorem not_mem_of_concat {β : Type} {f : AppendReportRequest → β} {requests : List AppendReportRequest}
    (h : ((requests ++ [request]).map f).Nodup) {other : AppendReportRequest}
    (hother : other ∈ requests) : f other ≠ f request := by
  rw [List.map_append] at h
  exact (List.nodup_append.mp h).2.2 _ (List.mem_map_of_mem hother) _
    (List.mem_singleton.mpr rfl)

theorem eq_of_map_eq {α β : Type} {f : α → β} {xs ys zs : List α} (hzs : (zs.map f).Nodup)
    (hxs : ∀ x ∈ xs, x ∈ zs) (hys : ∀ y ∈ ys, y ∈ zs) (h : xs.map f = ys.map f) : xs = ys := by
  induction xs generalizing ys with
  | nil => exact (List.map_eq_nil_iff.mp h.symm).symm
  | cons x xs ih =>
    obtain ⟨y, rest, rfl, hkey, hrest⟩ := List.map_eq_cons_iff.mp h.symm
    rw [List.inj_on_of_nodup_map hzs (hys y List.mem_cons_self) (hxs x List.mem_cons_self) hkey,
      ih (fun x hx => hxs x (List.mem_cons_of_mem _ hx))
        (fun y hy => hys y (List.mem_cons_of_mem _ hy)) hrest.symm]

theorem historyOf_mem {kept : List AppendReportRequest} {version : StoredReportVersion}
    (hversion : version ∈ historyOf kept) :
    (∃ r ∈ kept, r.versionId = version.versionId ∧ r.manifestId = version.manifestId ∧
      r.inputSetHash = version.inputSetHash ∧ r.retained = version.retained ∧
      r.reportSchemaVersion = version.reportSchemaVersion) ∧
      ∃ r ∈ kept, r.reportId = version.reportId := by
  induction kept using List.reverseRecOn generalizing version with
  | nil => exact absurd hversion List.not_mem_nil
  | append_singleton kept request ih =>
    rw [historyOf_concat] at hversion
    rcases List.mem_append.mp hversion with hold | hnew
    · obtain ⟨⟨r, hr, hrow⟩, s, hs, hreport⟩ := ih hold
      exact ⟨⟨r, List.mem_append_left _ hr, hrow⟩, s, List.mem_append_left _ hs, hreport⟩
    · have hlast : request ∈ kept ++ [request] := List.mem_append_right _ (List.mem_singleton.mpr rfl)
      obtain rfl := List.mem_singleton.mp hnew
      refine ⟨⟨request, hlast, rfl, rfl, rfl, rfl, rfl⟩, ?_⟩
      cases hcurrent : (historyOf kept).getLast? with
      | none => exact ⟨request, hlast, rfl⟩
      | some last =>
        obtain ⟨_, s, hs, hreport⟩ := ih (List.mem_of_getLast? hcurrent)
        exact ⟨s, List.mem_append_left _ hs, hreport⟩

/-- Tables that keep the first request of every input set. -/
structure KeepsFirst (db : ReportTables) (requests : List AppendReportRequest) : Prop where
  coherent : Coherent db fun date =>
    fresh AppendReportRequest.identity (Histories.ofDate requests date)

theorem fresh_row_mem {requests : List AppendReportRequest} {date : Date}
    {version : StoredReportVersion}
    (hversion : version ∈ historyOf (fresh AppendReportRequest.identity
      (Histories.ofDate requests date))) :
    (∃ r ∈ requests, r.versionId = version.versionId ∧ r.manifestId = version.manifestId ∧
      r.inputSetHash = version.inputSetHash ∧ r.retained = version.retained ∧
      r.reportSchemaVersion = version.reportSchemaVersion) ∧
      ∃ r ∈ requests, r.reportId = version.reportId := by
  have hmem : ∀ r ∈ fresh AppendReportRequest.identity (Histories.ofDate requests date),
      r ∈ requests := fun r hr => (List.mem_filter.mp (fresh_subset _ hr)).1
  obtain ⟨⟨r, hr, hrow⟩, s, hs, hreport⟩ := historyOf_mem hversion
  exact ⟨⟨r, hmem r hr, hrow⟩, s, hmem s hs, hreport⟩

theorem keep_fresh (requests : List AppendReportRequest) (request : AppendReportRequest)
    (hnew : request.identity ∉ (fresh AppendReportRequest.identity
      (Histories.ofDate requests request.reportDateSeoul)).map AppendReportRequest.identity) :
    keep (fun date => fresh AppendReportRequest.identity (Histories.ofDate requests date)) request =
      fun date => fresh AppendReportRequest.identity
        (Histories.ofDate (requests ++ [request]) date) := by
  funext date
  rw [Histories.ofDate_concat]
  by_cases hsame : date = request.reportDateSeoul
  · subst hsame
    rw [keep, Function.update_self, if_pos rfl, fresh_concat, pushNew, if_neg hnew]
  · rw [keep, Function.update_of_ne hsame, if_neg (Ne.symm hsame), List.append_nil]

theorem known_fresh (requests : List AppendReportRequest) (request : AppendReportRequest)
    (hknown : request.identity ∈ (fresh AppendReportRequest.identity
      (Histories.ofDate requests request.reportDateSeoul)).map AppendReportRequest.identity)
    (date : Date) : fresh AppendReportRequest.identity
        (Histories.ofDate (requests ++ [request]) date) =
      fresh AppendReportRequest.identity (Histories.ofDate requests date) := by
  rw [Histories.ofDate_concat]
  by_cases hsame : date = request.reportDateSeoul
  · subst hsame
    rw [if_pos rfl, fresh_concat, pushNew, if_pos hknown]
  · rw [if_neg (Ne.symm hsame), List.append_nil]

theorem KeepsFirst.accepts {db : ReportTables} {requests : List AppendReportRequest}
    (h : KeepsFirst db requests) (hsound : ∀ r ∈ requests, Sound codecs r)
    (hrequest : Sound codecs request) (hids : FreshIds (requests ++ [request]))
    (hnew : request.identity ∉ (fresh AppendReportRequest.identity
      (Histories.ofDate requests request.reportDateSeoul)).map AppendReportRequest.identity) :
    Accepts db request := by
  have hidentities : ∀ version ∈ historyOf (fresh AppendReportRequest.identity
      (Histories.ofDate requests request.reportDateSeoul)), version.identity ≠ request.identity := by
    intro version hversion heq
    refine hnew ?_
    rw [← historyOf_identities, ← heq]
    exact List.mem_map_of_mem hversion
  refine ⟨hrequest.window, ?_, ?_, ?_, ?_, ?_, ?_, ?_⟩
  · intro row hrow hdate
    obtain ⟨version, hversion, rfl⟩ := h.coherent.row_mem hrow
    rw [hdate] at hversion
    exact hidentities version hversion
  · intro row hrow hdate _ hsame
    obtain ⟨version, hversion, rfl⟩ := h.coherent.manifest_mem hrow
    rw [hdate] at hversion
    obtain ⟨⟨r, hr, _, _, hhash, hretained, hschema⟩, _⟩ := fresh_row_mem hversion
    refine hidentities version hversion (Prod.ext ?_ ?_)
    · exact hschema.symm.trans ((hsound r hr).schema.trans hrequest.schema.symm)
    · have hinput := (hsound r hr).input
      rw [hretained, hhash] at hinput
      exact hinput.symm.trans (hsame.trans hrequest.input)
  · intro row hrow
    obtain ⟨version, hversion, rfl⟩ := h.coherent.row_mem hrow
    obtain ⟨⟨r, hr, hid, _⟩, _⟩ := fresh_row_mem hversion
    exact fun heq => not_mem_of_concat hids.versions hr (hid.trans heq)
  · intro row hrow
    obtain ⟨version, hversion, rfl⟩ := h.coherent.manifest_mem hrow
    obtain ⟨⟨r, hr, _, hid, _⟩, _⟩ := fresh_row_mem hversion
    exact fun heq => not_mem_of_concat hids.manifests hr (hid.trans heq)
  · intro row hrow
    obtain ⟨version, hversion, rfl⟩ := h.coherent.row_mem hrow
    obtain ⟨⟨r, hr, _, hid, _⟩, _⟩ := fresh_row_mem hversion
    exact fun heq => not_mem_of_concat hids.manifests hr (hid.trans heq)
  · intro row hrow
    obtain ⟨version, hversion, rfl⟩ := h.coherent.manifest_mem hrow
    obtain ⟨⟨r, hr, hid, _⟩, _⟩ := fresh_row_mem hversion
    exact fun heq => not_mem_of_concat hids.versions hr (hid.trans heq)
  · intro _ row hrow
    have hmem : (row.id, row.latestVersionId) ∈ (db.reports.rows.filter fun other =>
        other.reportDateSeoul = row.reportDateSeoul).map fun row => (row.id, row.latestVersionId) :=
      List.mem_map_of_mem (List.mem_filter.mpr ⟨hrow, decide_eq_true rfl⟩)
    rw [h.coherent.reports] at hmem
    obtain ⟨last, hlast, hpair⟩ := List.mem_map.mp hmem
    obtain ⟨_, r, hr, hid⟩ := fresh_row_mem (List.mem_of_getLast? (Option.mem_toList.mp hlast))
    have hrowId : row.id = r.reportId := ((Prod.mk.inj hpair).1.symm.trans hid.symm)
    rw [hrowId]
    exact not_mem_of_concat hids.reports hr

theorem KeepsFirst.unknown {db : ReportTables} {requests : List AppendReportRequest}
    (h : KeepsFirst db requests) (haccepts : Accepts db request) :
    request.identity ∉ (fresh AppendReportRequest.identity
      (Histories.ofDate requests request.reportDateSeoul)).map AppendReportRequest.identity := by
  intro hknown
  rw [← historyOf_identities] at hknown
  obtain ⟨version, hversion, hidentity⟩ := List.mem_map.mp hknown
  have hrowDate : version.reportDateSeoul = request.reportDateSeoul := by
    have hmem := List.mem_map_of_mem (f := rowOf) hversion
    rw [← h.coherent.versions] at hmem
    exact of_decide_eq_true (List.mem_filter.mp hmem).2
  exact absurd hidentity (haccepts.identity (rowOf version) (h.coherent.mem_versions hversion)
    hrowDate)

theorem exists_writes {db : ReportTables} {kept : Date → List AppendReportRequest}
    (haccepts : Accepts db request) : ∃ t, Writes db t kept request := by
  have hversion : db.versions.find? (rowOf (proposed kept request)).id = none :=
    Table.find?_eq_none.mpr haccepts.versionId
  have hmanifest : db.manifests.find? (manifestOf (proposed kept request)).id = none :=
    Table.find?_eq_none.mpr haccepts.manifestId
  obtain ⟨versions, hversions⟩ := Table.exists_insert hversion
  obtain ⟨manifests, hmanifests⟩ := Table.exists_insert hmanifest
  obtain ⟨reports, hreports⟩ : ∃ reports,
      db.pointTo (lockedReport db request.reportDateSeoul) request = some reports := by
    cases hlocked : lockedReport db request.reportDateSeoul with
    | none => exact Table.exists_insert (Table.find?_eq_none.mpr (haccepts.reportId hlocked))
    | some report => exact ⟨_, rfl⟩
  exact ⟨⟨reports, versions, manifests⟩, (Table.insert?_eq_some.mp hversions).2,
    (Table.insert?_eq_some.mp hmanifests).2, hreports⟩

/-- What the tables do with one more reconciliation: they give the current version for
    its own input set, refuse one that the date has left behind or whose row the columns
    refuse, and take any other. -/
theorem KeepsFirst.step {db : ReportTables} {requests : List AppendReportRequest}
    (h : KeepsFirst db requests) (hsound : ∀ r ∈ requests, Sound codecs r)
    (hrequest : Sound codecs request) (hids : FreshIds (requests ++ [request])) :
    KeepsFirst (attempt (sqlStep codecs admits) db request)
      (requests ++ if Replays codecs admits request then [request] else []) ∧
    ((∃ e, appendInSession codecs admits db request = .error e) ↔
      (db.history request.reportDateSeoul).getLast?.map StoredReportVersion.identity ≠
        some request.identity ∧
      (request.identity ∈ (db.history request.reportDateSeoul).map StoredReportVersion.identity ∨
        ¬Replays codecs admits request)) := by
  rw [h.coherent.history, historyOf_identities]
  -- what is not appended leaves the kept requests as they are
  have hkept : request.identity ∈ (fresh AppendReportRequest.identity
        (Histories.ofDate requests request.reportDateSeoul)).map AppendReportRequest.identity ∨
      ¬Replays codecs admits request →
      KeepsFirst db (requests ++ if Replays codecs admits request then [request] else []) := by
    intro hleft
    by_cases hreplays : Replays codecs admits request
    · rw [if_pos hreplays]
      have hsame : (fun date => fresh AppendReportRequest.identity
          (Histories.ofDate (requests ++ [request]) date)) = fun date =>
          fresh AppendReportRequest.identity (Histories.ofDate requests date) :=
        funext (known_fresh requests request (hleft.resolve_right (not_not_intro hreplays)))
      exact ⟨hsame ▸ h.coherent⟩
    · rw [if_neg hreplays, List.append_nil]
      exact h
  cases hcurrent : currentOf (fun date => fresh AppendReportRequest.identity
      (Histories.ofDate requests date)) request with
  | some version =>
    have happend : appendInSession codecs admits db request = .ok (db, ⟨version, false⟩) :=
      (appendInSession_iff h.coherent).mpr (.inl ⟨version, hcurrent, rfl, rfl⟩)
    obtain ⟨hlast, hidentity⟩ := current?_eq_some.mp hcurrent
    have hknown := List.mem_map_of_mem (f := StoredReportVersion.identity)
      (List.mem_of_getLast? hlast)
    rw [historyOf_identities, hidentity] at hknown
    rw [attempt_of_ok (sqlStep_eq_ok.mpr ⟨_, happend⟩)]
    refine ⟨hkept (.inl hknown), iff_of_false ?_ fun hleft => hleft.1 ?_⟩
    · rintro ⟨e, herror⟩
      rw [happend] at herror
      cases herror
    · rw [hlast, Option.map_some, hidentity]
  | none =>
    have hlast := current?_eq_none.mp hcurrent
    by_cases hleft : request.identity ∈ (fresh AppendReportRequest.identity
        (Histories.ofDate requests request.reportDateSeoul)).map AppendReportRequest.identity ∨
        ¬Replays codecs admits request
    · obtain ⟨e, herror⟩ : ∃ e, appendInSession codecs admits db request = .error e := by
        cases happend : appendInSession codecs admits db request with
        | error e => exact ⟨e, rfl⟩
        | ok result =>
          rcases (appendInSession_iff h.coherent).mp happend with ⟨version, hversion, _⟩ |
            ⟨_, hreplays, haccepts, _⟩
          · exact absurd (hcurrent.symm.trans hversion) (by simp)
          · exact absurd (hleft.resolve_right (not_not_intro hreplays)) (h.unknown haccepts)
      have hstep : sqlStep codecs admits db request = .error e := by
        rw [sqlStep, herror]
        rfl
      rw [attempt_of_error hstep]
      exact ⟨hkept hleft, iff_of_true ⟨e, herror⟩ ⟨hlast, hleft⟩⟩
    · obtain ⟨hnew, hreplays⟩ := not_or.mp hleft
      have hreplays := not_not.mp hreplays
      have haccepts := h.accepts hsound hrequest hids hnew
      obtain ⟨t, hwrites⟩ := @exists_writes request db (fun date =>
        fresh AppendReportRequest.identity (Histories.ofDate requests date)) haccepts
      have happend := (appendInSession_iff h.coherent).mpr
        (.inr ⟨hcurrent, hreplays, haccepts, hwrites, rfl⟩)
      rw [attempt_of_ok (sqlStep_eq_ok.mpr ⟨_, happend⟩), if_pos hreplays]
      refine ⟨⟨keep_fresh requests request hnew ▸ h.coherent.append haccepts hwrites⟩,
        iff_of_false ?_ fun hrefused => hleft hrefused.2⟩
      rintro ⟨e, herror⟩
      rw [happend] at herror
      cases herror

theorem tablesAfter_keepsFirst {requests : List AppendReportRequest}
    (hsound : ∀ r ∈ requests, Sound codecs r) (hids : FreshIds requests) :
    KeepsFirst (tablesAfter codecs admits requests)
      (requests.filter fun r => Replays codecs admits r) := by
  induction requests using List.reverseRecOn with
  | nil => exact ⟨coherent_empty⟩
  | append_singleton requests request ih =>
    have hbefore := fun r hr => hsound r (List.mem_append_left _ hr)
    have hold := ih hbefore (hids.sublist (List.sublist_append_left _ _))
    have hstep := (@KeepsFirst.step codecs admits request _ _ hold
      (fun r hr => hbefore r (List.mem_filter.mp hr).1)
      (hsound request (List.mem_append_right _ (List.mem_singleton.mpr rfl)))
      (hids.sublist (List.filter_sublist.append_right _))).1
    rw [tablesAfter_concat, List.filter_append, List.filter_singleton]
    by_cases hreplays : Replays codecs admits request
    · rw [if_pos hreplays] at hstep
      rw [decide_eq_true hreplays]
      exact hstep
    · rw [if_neg hreplays] at hstep
      rw [decide_eq_false hreplays]
      exact hstep

end Reconciliations

section Refinement
variable (codecs : Codecs)
variable (admits : AppendReportRequest → ReportInputManifest → DailyReportPayload → Bool)

theorem isPrefix_accepted {codecs : Codecs}
    {admits : AppendReportRequest → ReportInputManifest → DailyReportPayload → Bool}
    (requests more : List AppendReportRequest) :
    accepted codecs admits requests <+: accepted codecs admits (requests ++ more) := by
  induction more using List.reverseRecOn with
  | nil => rw [List.append_nil]
  | append_singleton more request ih =>
    refine ih.trans ?_
    rw [← List.append_assoc]
    generalize requests ++ more = taken
    rw [accepted, accepted, List.foldl_append, List.foldl_cons, List.foldl_nil]
    split
    · exact List.prefix_append _ _
    · exact List.prefix_rfl

/-- The tables refine the reference store: over every sequence of transactions, in
    which the refused ones leave no trace, each date's history is the one that the
    accepted requests make in the reference store, and every accepted request gets the
    outcome that the reference store gives it. -/
theorem tables_refine (requests : List AppendReportRequest) (date : Date) :
    (accepted codecs admits requests).Sublist requests ∧
    (tablesAfter codecs admits requests).history date =
      (Histories.after (accepted codecs admits requests)).history date ∧
    Lawful date ((tablesAfter codecs admits requests).history date) ∧
    (((tablesAfter codecs admits requests).history date).map StoredReportVersion.identity).Nodup ∧
    (∀ more, (tablesAfter codecs admits requests).history date <+:
      (tablesAfter codecs admits (requests ++ more)).history date) ∧
    ∀ request t outcome,
      appendInSession codecs admits (tablesAfter codecs admits requests) request = .ok (t, outcome) →
      outcome = ((Histories.after (accepted codecs admits requests)).appendIfChanged request).2 := by
  obtain ⟨_, hmirrors, hsub⟩ := @tablesAfter_accepted codecs admits requests
  have hhistory := hmirrors.kept date
  refine ⟨hsub, hhistory, hhistory ▸ history_lawful _ date, ?_, fun more => ?_, ?_⟩
  · rw [hmirrors.coherent.history, historyOf_identities]
    exact hmirrors.coherent.distinct date
  · obtain ⟨rest, hrest⟩ := @isPrefix_accepted codecs admits requests more
    rw [hhistory, (tablesAfter_accepted (requests ++ more)).2.1.kept, ← hrest,
      Histories.history_after, Histories.history_after, ofDate_append]
    exact isPrefix_historyOf (isPrefix_changed _ _)
  · intro request t outcome hok
    exact (hmirrors.step hok).2.symm

section Reconciled
variable {codecs : Codecs}
variable {admits : AppendReportRequest → ReportInputManifest → DailyReportPayload → Bool}
variable {requests : List AppendReportRequest}

theorem history_fresh (hreconciled : ∀ r ∈ requests, Reconciled codecs r)
    (hids : FreshIds requests) (date : Date) :
    (tablesAfter codecs admits requests).history date =
      historyOf (fresh AppendReportRequest.identity
        (Histories.ofDate (requests.filter fun r => Replays codecs admits r) date)) :=
  (tablesAfter_keepsFirst (fun r hr => (hreconciled r hr).sound) hids).coherent.history date

theorem history_eq_iff (hreconciled : ∀ r ∈ requests, Reconciled codecs r)
    (hids : FreshIds requests) (date : Date) :
    (tablesAfter codecs admits requests).history date = (Histories.after requests).history date ↔
      (((Histories.after requests).history date).map StoredReportVersion.identity).Nodup ∧
        ∀ r ∈ changed AppendReportRequest.identity (Histories.ofDate requests date),
          Replays codecs admits r := by
  have hfilter : Histories.ofDate (requests.filter fun r => Replays codecs admits r) date =
      (Histories.ofDate requests date).filter fun r => Replays codecs admits r :=
    List.filter_comm _ _ _
  rw [history_fresh hreconciled hids, Histories.history_after, historyOf_identities, hfilter,
    ← fresh_filter_eq_changed_iff]
  refine ⟨fun heq => ?_, fun heq => by rw [heq]⟩
  have hversions := congrArg (List.map (·.versionId)) heq
  rw [historyOf_map (fun _ _ => rfl), historyOf_map (fun _ _ => rfl)] at hversions
  refine eq_of_map_eq hids.versions (fun r hr => ?_) (fun r hr => ?_) hversions
  · exact (List.mem_filter.mp (List.mem_filter.mp (fresh_subset _ hr)).1).1
  · exact (List.mem_filter.mp (changed_subset _ hr)).1

theorem refuses_iff (hreconciled : ∀ r ∈ requests, Reconciled codecs r)
    {request : AppendReportRequest} (hrequest : Reconciled codecs request)
    (hids : FreshIds (requests ++ [request])) :
    ∃ payload projected, verifyRetained codecs request = .ok (payload, projected) ∧
      ((∃ e, appendInSession codecs admits (tablesAfter codecs admits requests) request =
          .error e) ↔
        ((tablesAfter codecs admits requests).history request.reportDateSeoul).getLast?.map
          StoredReportVersion.identity ≠ some request.identity ∧
        (request.identity ∈ ((tablesAfter codecs admits requests).history
            request.reportDateSeoul).map StoredReportVersion.identity ∨
          admits request payload projected = false)) := by
  have hsound := fun r hr => (hreconciled r hr).sound
  have hkeeps := @tablesAfter_keepsFirst codecs admits requests hsound
    (hids.sublist (List.sublist_append_left _ _))
  obtain ⟨payload, projected, hverified⟩ := hrequest.sound.verified
  have hstep := (@KeepsFirst.step codecs admits request _ _ hkeeps
    (fun r hr => hsound r (List.mem_filter.mp hr).1) hrequest.sound
    (hids.sublist (List.filter_sublist.append_right _))).2
  rw [replays_iff hverified, Bool.not_eq_true] at hstep
  exact ⟨payload, projected, hverified, hstep⟩

end Reconciled

/-- Over reconciliations with identifiers of their own the tables keep, of the requests
    whose rows the columns admit, the first of every input set of a date. They agree with
    the reference store exactly when no input set returns after a change and the columns
    admit every change, and they refuse a further request exactly when its input set is not
    the current one and has been left behind or its row is not admitted. -/
theorem tables_agree_iff {requests : List AppendReportRequest}
    (hreconciled : ∀ r ∈ requests, Reconciled codecs r) (hids : FreshIds requests)
    (date : Date) :
    (tablesAfter codecs admits requests).history date =
      historyOf (fresh AppendReportRequest.identity
        (Histories.ofDate (requests.filter fun r => Replays codecs admits r) date)) ∧
    ((tablesAfter codecs admits requests).history date =
        (Histories.after requests).history date ↔
      (((Histories.after requests).history date).map StoredReportVersion.identity).Nodup ∧
        ∀ r ∈ changed AppendReportRequest.identity (Histories.ofDate requests date),
          Replays codecs admits r) ∧
    ∀ request, Reconciled codecs request → FreshIds (requests ++ [request]) →
      request.reportDateSeoul = date →
      ∃ payload projected, verifyRetained codecs request = .ok (payload, projected) ∧
        ((∃ e, appendInSession codecs admits (tablesAfter codecs admits requests) request =
            .error e) ↔
          ((tablesAfter codecs admits requests).history date).getLast?.map
            StoredReportVersion.identity ≠ some request.identity ∧
          (request.identity ∈ ((tablesAfter codecs admits requests).history date).map
              StoredReportVersion.identity ∨
            admits request payload projected = false)) := by
  refine ⟨history_fresh hreconciled hids date, history_eq_iff hreconciled hids date, ?_⟩
  rintro request hrequest hfresh rfl
  exact refuses_iff hreconciled hrequest hfresh

end Refinement

section Sample

def sampleAdmits (_ : AppendReportRequest) (_ : ReportInputManifest) (_ : DailyReportPayload) : Bool :=
  true

def sampleScope (version : Text) : ReportInputManifest :=
  { ReportAccounting.sampleManifest [] with sourceScopeVersion := version, sourceCoverage := [] }

theorem sampleScope_valid (version : Text) :
    (sampleScope version).validateWindowsAndRecords = .ok () := rfl

theorem sampleScope_hashes :
    (buildManifest ReportAccounting.sampleForm ReportAccounting.sampleGzip
      (sampleScope "scope-1".toList)).map (·.envelope.inputSetHash) ≠
    (buildManifest ReportAccounting.sampleForm ReportAccounting.sampleGzip
      (sampleScope "scope-2".toList)).map (·.envelope.inputSetHash) := by
  decide +kernel

theorem sampleScope_request (version : Text) (id : UUID) : ∃ request,
    Reconciled sampleCodecs request ∧
    (buildManifest ReportAccounting.sampleForm ReportAccounting.sampleGzip
      (sampleScope version)).map (·.envelope.inputSetHash) = .ok request.inputSetHash ∧
    request.reportSchemaVersion = reportSchemaName.toList ∧
    request.reportDateSeoul = ⟨20666, by decide⟩ ∧
    request.versionId = id ∧ request.manifestId = id ∧ request.reportId = id := by
  obtain ⟨build, hbuild⟩ := @ReportAccounting.projectReport_of ReportAccounting.sampleForm
    ReportAccounting.sampleGzip _ (sampleScope_valid version) rfl (Nat.two_pow_pos 53)
  obtain ⟨manifest, report, hmanifest, _, hreport, rfl⟩ := projectReport_iff.mp hbuild
  have hcarried := (ReportAccounting.projectPayload_shows hreport).2
  obtain ⟨normalized, hnormalized, hpayload⟩ := bind_eq_ok.mp hmanifest
  have hdate : manifest.payload.reportDateSeoul = (sampleScope version).reportDateSeoul := by
    rw [← Except.ok.inj hpayload]
    exact ReportAccounting.normalizeManifest_date hnormalized
  refine ⟨_, ⟨⟨sampleScope version, 0, id, id, id⟩, sampleScope_valid version, rfl, Nat.zero_le _,
    bind_eq_ok.mpr ⟨_, hbuild, rfl⟩⟩, ?_, rfl, hcarried.date.trans hdate, rfl, rfl, rfl⟩
  rw [hmanifest]
  exact congrArg Except.ok hcarried.inputSet.symm

/-- Three reconciliations of one date, of which the last returns to the input set of the
    first. -/
structure Returns (first second again : AppendReportRequest) : Prop where
  reconciled : ∀ r ∈ [first, second, again], Reconciled sampleCodecs r
  fresh : FreshIds [first, second, again]
  dates : second.reportDateSeoul = first.reportDateSeoul ∧
    again.reportDateSeoul = first.reportDateSeoul
  left : first.identity ≠ second.identity
  same : again.identity = first.identity

theorem sampleReturn : ∃ first second again, Returns first second again := by
  obtain ⟨first, hfirst, hfirstHash, hfirstSchema, hfirstDate, hfirstIds⟩ :=
    sampleScope_request "scope-1".toList 1
  obtain ⟨second, hsecond, hsecondHash, hsecondSchema, hsecondDate, hsecondIds⟩ :=
    sampleScope_request "scope-2".toList 2
  obtain ⟨again, hagain, hagainHash, hagainSchema, hagainDate, hagainIds⟩ :=
    sampleScope_request "scope-1".toList 3
  refine ⟨first, second, again, by simp [hfirst, hsecond, hagain], ?_,
    ⟨hsecondDate.trans hfirstDate.symm, hagainDate.trans hfirstDate.symm⟩, fun heq => ?_,
    Prod.ext (hagainSchema.trans hfirstSchema.symm)
      (Except.ok.inj (hagainHash.symm.trans hfirstHash))⟩
  · refine ⟨?_, ?_, ?_⟩ <;> simp [hfirstIds, hsecondIds, hagainIds]
  · refine sampleScope_hashes ?_
    rw [hfirstHash, hsecondHash, (Prod.mk.inj heq).2]

theorem Reconciled.replays {request : AppendReportRequest} (h : Reconciled sampleCodecs request) :
    Replays sampleCodecs sampleAdmits request := by
  obtain ⟨payload, projected, hverified⟩ := h.sound.verified
  exact (replays_iff hverified).mpr rfl

theorem tables_agree_iff_sample : ∃ first second again,
    (∀ r ∈ [first, second, again], Reconciled sampleCodecs r) ∧
    first.identity ≠ second.identity ∧ again.identity = first.identity ∧
    (tablesAfter sampleCodecs sampleAdmits [first, second]).history first.reportDateSeoul =
      historyOf [first, second] ∧
    ∃ e, appendInSession sampleCodecs sampleAdmits
      (tablesAfter sampleCodecs sampleAdmits [first, second]) again = .error e := by
  obtain ⟨first, second, again, h⟩ := sampleReturn
  have hbefore : ∀ r ∈ [first, second], Reconciled sampleCodecs r := fun r hr =>
    h.reconciled r (List.mem_append_left [again] hr)
  obtain ⟨hhistory, _, hrefuses⟩ := tables_agree_iff sampleCodecs sampleAdmits hbefore
    (h.fresh.sublist (List.sublist_append_left [first, second] [again])) first.reportDateSeoul
  have hkept : fresh AppendReportRequest.identity (Histories.ofDate ([first, second].filter fun r =>
      Replays sampleCodecs sampleAdmits r) first.reportDateSeoul) = [first, second] := by
    rw [List.filter_eq_self.mpr fun r hr => decide_eq_true (hbefore r hr).replays]
    simp [Histories.ofDate, fresh, pushNew, h.dates.1, h.left.symm]
  rw [hkept] at hhistory
  obtain ⟨_, _, _, hiff⟩ := hrefuses again (h.reconciled again (by simp)) h.fresh h.dates.2
  rw [hhistory, ← List.getLast?_map, historyOf_identities] at hiff
  refine ⟨first, second, again, h.reconciled, h.left, h.same, hhistory, hiff.mpr ⟨?_, .inl ?_⟩⟩
  · rw [h.same]
    simp [h.left.symm]
  · simp [h.same]

end Sample

end PredictionMarketMonitor.HistoryTables
