import PredictionMarketMonitor.HistoryTables

set_option autoImplicit false

/-!
# The two report stores, request by request

The tables answer a sequence of requests as the reference store does until a request
that changes the current input set is one that their constraints refuse, such as the
return of an input set that the date has left behind.
-/
namespace PredictionMarketMonitor.HistoryAgreement

open ChangeLogs CollectionBase FallibleSteps HistoryTables KeyedTable ReportFormula ReportHistory
open ReportInputs ReportManifest

section Laws

def Current (histories : Histories) (request : AppendReportRequest) : Prop :=
  (histories.history request.reportDateSeoul).getLast?.map StoredReportVersion.identity =
    some request.identity

end Laws

section Agreement
variable {codecs : Codecs}
variable {admits : AppendReportRequest → ReportInputManifest → DailyReportPayload → Bool}
variable {requests : List AppendReportRequest} {request : AppendReportRequest}

section Mirrored
variable {db : ReportTables}

theorem Mirrors.row_mem (h : Mirrors db requests) {row : DailyReportVersion}
    (hrow : row ∈ db.versions.rows) :
    ∃ version ∈ (Histories.after requests).history row.reportDateSeoul, rowOf version = row := by
  rw [Histories.history_after]
  exact h.coherent.row_mem hrow

theorem Mirrors.manifest_mem (h : Mirrors db requests) {row : StoredManifest}
    (hrow : row ∈ db.manifests.rows) :
    ∃ version ∈ (Histories.after requests).history row.reportDateSeoul,
      manifestOf version = row := by
  rw [Histories.history_after]
  exact h.coherent.manifest_mem hrow

theorem Mirrors.mem (h : Mirrors db requests) {date : Date} {version : StoredReportVersion}
    (hversion : version ∈ (Histories.after requests).history date) :
    rowOf version ∈ db.versions ∧ manifestOf version ∈ db.manifests ∧
      version.reportDateSeoul = date := by
  have hdate := (history_lawful requests date).dates version hversion
  rw [Histories.history_after] at hversion
  exact ⟨h.coherent.mem_versions hversion, h.coherent.mem_manifests hversion, hdate⟩

end Mirrored

end Agreement

section Results

end Results

end PredictionMarketMonitor.HistoryAgreement
