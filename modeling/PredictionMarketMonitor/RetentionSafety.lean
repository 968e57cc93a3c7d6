import PredictionMarketMonitor.RetentionRuns

set_option autoImplicit false

/-!
# What retention never destroys

Step by step along a run of cleanups and expiries: a reference keeps one link, a
tombstone outlives the manifests that refer to it, and nothing goes before its time.
-/
namespace PredictionMarketMonitor.RetentionSafety

open CivilTime CollectionBase FallibleSteps KeyedTable ReportFormula ReportManifest RetentionRuns
open RetentionStore

section Laws

/-- Every reference has its manifest and one link, to a live source or to a tombstone, and
    a tombstone is retained as long as any manifest that refers to it. -/
structure Linked (t : Repository) : Prop where
  manifests : ∀ reference ∈ t.references, ∃ retained ∈ t.manifests,
    retained.id = reference.manifestId
  one : ∀ reference ∈ t.references,
    (reference.tombstoneId = none ∧
      ∃ source ∈ t.sources, reference.liveSourceEntityId = some source.id) ∨
    (reference.liveSourceEntityId = none ∧
      ∃ tombstone ∈ t.tombstones, reference.tombstoneId = some tombstone.id)
  outlives : ∀ tombstone ∈ t.tombstones, ∀ reference ∈ t.references,
    reference.tombstoneId = some tombstone.id → ∀ retained ∈ t.manifests,
      retained.id = reference.manifestId → retained.retainUntil ≤ tombstone.retainUntil

/-- The command is an expiry at or after the time. -/
def Elapsed (retainUntil : Instant) : RetentionCommand → Prop
  | .cleanup _ _ => False
  | .expire observedAt => retainUntil ≤ observedAt

/-- A link that stays as it was, or that a due cleanup moves from its source to a tombstone. -/
def Relinked (t : Repository) (command : RetentionCommand)
    (reference kept : ManifestItemReference) : Prop :=
  kept = reference ∨ (item kept = item reference ∧ kept.liveSourceEntityId = none ∧
    ∃ source ∈ t.sources, reference.liveSourceEntityId = some source.id ∧ Due source command)

/-- What one command leaves of a store. -/
structure Keeps (t u : Repository) (command : RetentionCommand) : Prop where
  payloads : ∀ retained ∈ u.manifests, retained ∈ t.manifests
  manifests : ∀ retained ∈ t.manifests, retained ∈ u.manifests ∨
    Elapsed retained.retainUntil command
  items : ∀ reference ∈ t.references, (∃ kept ∈ u.references, Relinked t command reference kept) ∨
    ∃ retained ∈ t.manifests, retained.id = reference.manifestId ∧
      Elapsed retained.retainUntil command
  tombstones : ∀ tombstone ∈ t.tombstones,
    (∃ kept ∈ u.tombstones, kept.id = tombstone.id ∧ kept.identity = tombstone.identity ∧
      tombstone.retainUntil ≤ kept.retainUntil) ∨
    (Elapsed tombstone.retainUntil command ∧ u.Unreferenced tombstone.id)

end Laws

section Steps
variable {codecs : Codecs} {t u : Repository} {command : RetentionCommand}

theorem linked_of_sound (h : Sound codecs t) : Linked t where
  manifests := by
    intro reference hreference
    obtain ⟨retained, hretained, hid, _⟩ := h.references reference hreference
    exact ⟨retained, hretained, hid⟩
  one := by
    intro reference hreference
    obtain ⟨_, _, _, hbacked⟩ := h.references reference hreference
    cases hbacked with
    | live source mem link alone => exact .inl ⟨alone, source, mem, link⟩
    | tombstone tombstone mem link alone _ => exact .inr ⟨alone, tombstone, mem, link⟩
  outlives := by
    intro tombstone htombstone reference hreference hlink retained hretained hid
    obtain ⟨manifest, hmanifest, hkey, hbacked⟩ := h.references reference hreference
    obtain rfl := Table.eq_of_key hmanifest hretained (hkey.trans hid.symm)
    cases hbacked with
    | live source mem link alone =>
      rw [hlink] at alone
      cases alone
    | tombstone other mem link alone proves =>
      have hsame : other.id = tombstone.id := Option.some_inj.mp (link.symm.trans hlink)
      rw [← Table.eq_of_key mem htombstone hsame]
      exact proves.outlives

theorem keeps_refl (t : Repository) (command : RetentionCommand) : Keeps t t command where
  payloads := fun _ h => h
  manifests := fun _ h => .inl h
  items := fun reference h => .inl ⟨reference, h, .inl rfl⟩
  tombstones := fun tombstone h => .inl ⟨tombstone, h, rfl, rfl, le_rfl⟩

/-- A reference to the removed source is relinked, every other one is left alone. -/
theorem keeps_cleaned {source : SourceEntity} (hdue : Due source command)
    (hsource : source ∈ t.sources) (hcleaned : Cleaned codecs t u source) : Keeps t u command where
  payloads := fun _ h => hcleaned.manifests ▸ h
  manifests := fun _ h => .inl (hcleaned.manifests ▸ h)
  items := by
    intro reference hreference
    by_cases hlink : reference.liveSourceEntityId = some source.id
    · have hrow : item reference ∈ u.references.rows.map item := by
        rw [hcleaned.items]
        exact List.mem_map_of_mem hreference
      obtain ⟨kept, hkept, hitem⟩ := List.mem_map.mp hrow
      refine .inl ⟨kept, hkept, .inr ⟨hitem, ?_, source, hsource, hlink, hdue⟩⟩
      -- a live link to another source was there before, under the same identity
      cases hlive : kept.liveSourceEntityId with
      | none => rfl
      | some entity =>
        have hne : entity ≠ source.id := by
          rintro rfl
          exact hcleaned.switched kept hkept hlive
        have hbefore := (hcleaned.others kept entity hne hlive).mp hkept
        have hsame : (item kept).id = (item reference).id :=
          congrArg ManifestItemReference.id hitem
        rw [Table.eq_of_key hbefore hreference hsame, hlink] at hlive
        exact absurd (Option.some_inj.mp hlive).symm hne
    · exact .inl ⟨reference, hcleaned.untouched reference hreference hlink, .inl rfl⟩
  tombstones := fun tombstone h => .inl (hcleaned.keeps tombstone h)

theorem keeps_expired {observedAt : Instant} (h : Sound codecs t)
    (hexpired : Expired t u observedAt) : Keeps t u (.expire observedAt) where
  payloads := by
    intro retained hretained
    rw [hexpired.manifests] at hretained
    exact (Table.mem_filter.mp hretained).1
  manifests := by
    intro retained hretained
    by_cases hlater : observedAt < retained.retainUntil
    · rw [hexpired.manifests]
      exact .inl (Table.mem_filter.mpr ⟨hretained, hlater⟩)
    · exact .inr (not_lt.mp hlater)
  items := by
    intro reference hreference
    obtain ⟨retained, hretained, hid, _⟩ := h.references reference hreference
    by_cases hlater : observedAt < retained.retainUntil
    · refine .inl ⟨reference, (hexpired.unexpired h hreference).mpr ⟨retained, ?_, hid⟩, .inl rfl⟩
      rw [hexpired.manifests]
      exact Table.mem_filter.mpr ⟨hretained, hlater⟩
    · exact .inr ⟨retained, hretained, hid, not_lt.mp hlater⟩
  tombstones := by
    intro tombstone htombstone
    by_cases hdue : u.Unreferenced tombstone.id ∧ tombstone.retainUntil ≤ observedAt
    · exact .inr ⟨hdue.2, hdue.1⟩
    · refine .inl ⟨tombstone, ?_, rfl, rfl, le_rfl⟩
      rw [hexpired.tombstones]
      exact Table.mem_filter.mpr ⟨htombstone, hdue⟩

theorem keeps_cleanup (h : Sound codecs t) {request : CleanupRequest} {newId : UUID → UUID}
    (hfresh : NewIds t newId) :
    Keeps t (attempt (retentionStep codecs) t (.cleanup request newId)) (.cleanup request newId) := by
  have hresult := cleanupSource_result h hfresh request
  cases hcleanup : cleanupSource codecs t request newId with
  | error e =>
    have hstep : retentionStep codecs t (.cleanup request newId) = .error e := by
      rw [retentionStep, hcleanup, error_bind]
    rw [attempt_of_error hstep]
    exact keeps_refl t _
  | ok result =>
    obtain ⟨after, outcome⟩ := result
    have hstep : retentionStep codecs t (.cleanup request newId) = .ok after := by
      rw [retentionStep, hcleanup, ok_bind]
      rfl
    rw [attempt_of_ok hstep]
    rw [hcleanup] at hresult
    cases hresult with
    | notEligible source mem id early => exact keeps_refl t _
    | deleted source mem id eligible attested _ cleaned tombstoneIds =>
      exact keeps_cleaned ⟨id.symm, eligible⟩ mem cleaned

theorem keeps_step (h : Sound codecs t) (hfresh : Fresh t command) :
    Keeps t (attempt (retentionStep codecs) t command) command := by
  cases command with
  | cleanup request newId => exact keeps_cleanup h hfresh
  | expire observedAt =>
    obtain ⟨after, outcome, hok, hexpired⟩ := expireRetainedReports_ok h observedAt
    have hstep : retentionStep codecs t (.expire observedAt) = .ok after := by
      rw [retentionStep, hok, ok_bind]
      rfl
    rw [attempt_of_ok hstep]
    exact keeps_expired h hexpired

end Steps

section Results

/-- In every run of cleanups and expiries of a new store each state is linked, each
    command takes nothing before its time, and a command that fails changes nothing. -/
theorem retention_keeps (codecs : Codecs) {db : Repository} (hseeded : Seeded db)
    (commands : List RetentionCommand) (hfresh : Meets (retentionStep codecs) Fresh db commands) :
    Linked (run (retentionStep codecs) db commands) ∧
    ∀ before command after, commands = before ++ command :: after →
      let t := run (retentionStep codecs) db before
      let u := run (retentionStep codecs) db (before ++ [command])
      Linked t ∧ Keeps t u command ∧ ∀ e, retentionStep codecs t command = .error e → u = t := by
  have hsound : Sound codecs db := sound_of_seeded codecs hseeded
  refine ⟨linked_of_sound (run_kept hsound commands hfresh).sound, ?_⟩
  rintro before command after rfl
  have hbefore := (run_kept hsound before (meets_append.mp hfresh).1).sound
  rw [run_append]
  exact ⟨linked_of_sound hbefore, keeps_step hbefore (meets_initial hfresh),
    fun e herror => attempt_of_error herror⟩

/-- A cleanup that is refused, one that leaves a tombstone, and the expiry of the report. -/
theorem retention_keeps_sample :
    Linked (run (retentionStep ManifestRoundTrip.sampleCodecs) sampleRepository sampleCommands) ∧
    Keeps (run (retentionStep ManifestRoundTrip.sampleCodecs) sampleRepository
        [.cleanup ⟨10, rawRetention⟩ id])
      (run (retentionStep ManifestRoundTrip.sampleCodecs) sampleRepository sampleCleanups)
      (.cleanup ⟨9, rawRetention⟩ id) := by
  obtain ⟨hlinked, hkeeps⟩ := retention_keeps ManifestRoundTrip.sampleCodecs sampleRepository_seeded
    sampleCommands sampleCommands_fresh
  exact ⟨hlinked, (hkeeps [.cleanup ⟨10, rawRetention⟩ id] (.cleanup ⟨9, rawRetention⟩ id) _ rfl).2.1⟩

end Results

end PredictionMarketMonitor.RetentionSafety
