import PredictionMarketMonitor.ManifestRoundTrip
import PredictionMarketMonitor.RetentionStore

set_option autoImplicit false

/-!
# Retention over whole runs

Every reference that is left has its manifest and is backed either by the live source
row or by a tombstone that the manifest attests and that outlives it.
-/
namespace PredictionMarketMonitor.RetentionRuns

open CanonicalJson CivilTime CollectionBase FallibleSteps KeySorting KeyedTable ReportInputs
open ReportManifest ReportFormula RetentionStore Sha256

def item (reference : ManifestItemReference) : ManifestItemReference :=
  { reference with liveSourceEntityId := none, tombstoneId := none }

/-- The retained manifest of a reference holds the entity that it names, with its hash. -/
def Attests (codecs : Codecs) (retained : RetainedManifest) (reference : ManifestItemReference)
    (kind : TombstoneEntityKind) : Prop :=
  ∃ payload valueSlice, verifiedManifest codecs retained = .ok payload ∧
    manifestValueSlice payload reference = .ok valueSlice ∧
    sha256 (canonicalBytes codecs.nf valueSlice.json) = reference.valueSliceSha256 ∧
    valueSlice.sourceId = reference.sourceId ∧
    provenanceHash valueSlice kind reference.sourceEntityId = some reference.sourceEntityHash

/-- A tombstone that stands for the entity of a reference as long as its manifest is retained. -/
structure Proves (codecs : Codecs) (retained : RetainedManifest) (tombstone : RetentionTombstone)
    (reference : ManifestItemReference) : Prop where
  entity : tombstone.identity.sourceEntityId = reference.sourceEntityId
  hash : tombstone.identity.sourceEntityHash = reference.sourceEntityHash
  valueSlice : tombstone.identity.manifestValueSliceSha256 = reference.valueSliceSha256
  attests : Attests codecs retained reference tombstone.identity.entityKind
  outlives : retained.retainUntil ≤ tombstone.retainUntil

inductive Backed (codecs : Codecs) (db : Repository) (retained : RetainedManifest)
    (reference : ManifestItemReference) : Prop
  | live (source : SourceEntity) (mem : source ∈ db.sources)
    (link : reference.liveSourceEntityId = some source.id) (alone : reference.tombstoneId = none)
  | tombstone (tombstone : RetentionTombstone) (mem : tombstone ∈ db.tombstones)
    (link : reference.tombstoneId = some tombstone.id) (alone : reference.liveSourceEntityId = none)
    (proves : Proves codecs retained tombstone reference)

structure Sound (codecs : Codecs) (db : Repository) : Prop where
  references : ∀ reference ∈ db.references, ∃ retained ∈ db.manifests,
    retained.id = reference.manifestId ∧ Backed codecs db retained reference
  dependencies : ∀ id, id ∈ db.reportDependencies ↔ ∃ retained ∈ db.manifests, retained.id = id
  identities : ∀ t ∈ db.tombstones, ∀ u ∈ db.tombstones, t.identity = u.identity → t = u

/-- A new store, whose references have their manifest and a live source. -/
inductive Seeded : Repository → Prop
  | seed {sources : Table SourceEntity.id} {manifests : Table RetainedManifest.id}
    {references : Table ManifestItemReference.id}
    (manifested : ∀ reference ∈ references, ∃ retained ∈ manifests,
      retained.id = reference.manifestId)
    (live : ∀ reference ∈ references, reference.tombstoneId = none ∧
      ∃ source ∈ sources, reference.liveSourceEntityId = some source.id) :
    Seeded (.seed sources manifests references)

theorem sound_of_seeded (codecs : Codecs) {db : Repository} (h : Seeded db) : Sound codecs db := by
  cases h with
  | seed manifested live =>
    refine ⟨fun reference hreference => ?_, fun id => ?_, fun t ht => ?_⟩
    · obtain ⟨retained, hretained, hid⟩ := manifested reference hreference
      obtain ⟨halone, source, hsource, hlink⟩ := live reference hreference
      exact ⟨retained, hretained, hid, .live source hsource hlink halone⟩
    · rw [Repository.seed, List.mem_toFinset, List.mem_map]
      rfl
    · exact absurd ht (Table.not_mem_empty t)

section Verification
variable {codecs : Codecs}

theorem verifyReference_iff {payload : ReportInputManifest} {reference : ManifestItemReference}
    {source : SourceEntity} :
    verifyReference codecs payload reference source = .ok () ↔
      reference.sourceEntityId = source.id ∧
      reference.sourceEntityHash = source.sourceEntityHash ∧
      source.sourceId = some reference.sourceId ∧
      ∃ valueSlice, manifestValueSlice payload reference = .ok valueSlice ∧
        valueSlice.sourceId = reference.sourceId ∧
        provenanceHash valueSlice source.entityKind source.id = some source.sourceEntityHash ∧
        sha256 (canonicalBytes codecs.nf valueSlice.json) = reference.valueSliceSha256 := by
  constructor
  · intro h
    obtain ⟨valueSlice, hslice, h⟩ := bind_eq_ok.mp h
    obtain ⟨⟨_, hentity, hhash, hsource, hvalue, hprovenance⟩, h⟩ := require_bind.mp h
    have hsliceSource : valueSlice.sourceId = reference.sourceId := by
      rw [← hsource] at hvalue
      exact (Option.some_inj.mp hvalue).symm
    exact ⟨hentity, hhash, hsource.symm, valueSlice, hslice, hsliceSource, hprovenance,
      require_eq_ok.mp h⟩
  · rintro ⟨hentity, hhash, hsource, valueSlice, hslice, hvalue, hprovenance, hsha⟩
    refine bind_eq_ok.mpr ⟨valueSlice, hslice, require_bind.mpr ⟨?_, require_of hsha⟩⟩
    refine ⟨by rw [hsource]; rfl, hentity, hhash, hsource.symm, by rw [hsource, hvalue],
      hprovenance⟩

theorem attests_of_verified {retained : RetainedManifest} {payload : ReportInputManifest}
    {reference : ManifestItemReference} {source : SourceEntity}
    (hpayload : verifiedManifest codecs retained = .ok payload)
    (h : verifyReference codecs payload reference source = .ok ()) :
    Attests codecs retained reference source.entityKind := by
  obtain ⟨hentity, hhash, _, valueSlice, hslice, hvalue, hprovenance, hsha⟩ :=
    verifyReference_iff.mp h
  refine ⟨payload, valueSlice, hpayload, hslice, hsha, hvalue, ?_⟩
  rw [hentity, hhash]
  exact hprovenance

end Verification

section Tombstones
variable {db : Repository} {candidate : TombstoneCandidate} {newId : UUID}

/-- Tombstones keep their identity, and their retention is only extended. -/
def Extends (old new : Table RetentionTombstone.id) : Prop :=
  ∀ t ∈ old, ∃ u ∈ new, u.id = t.id ∧ u.identity = t.identity ∧ t.retainUntil ≤ u.retainUntil

theorem extends_refl (tombstones : Table RetentionTombstone.id) : Extends tombstones tombstones :=
  fun t ht => ⟨t, ht, rfl, rfl, le_rfl⟩

theorem Extends.trans {first second third : Table RetentionTombstone.id}
    (h : Extends first second) (k : Extends second third) : Extends first third := by
  intro t ht
  obtain ⟨u, hu, hid, hidentity, hle⟩ := h t ht
  obtain ⟨v, hv, hid', hidentity', hle'⟩ := k u hu
  exact ⟨v, hv, hid'.trans hid, hidentity'.trans hidentity, hle.trans hle'⟩

structure Upserted (db t : Repository) (candidate : TombstoneCandidate) (newId : UUID)
    (tombstone : RetentionTombstone) : Prop where
  repository : t = { db with tombstones := t.tombstones }
  mem : tombstone ∈ t.tombstones
  identity : tombstone.identity = candidate.identity
  outlives : candidate.retainUntil ≤ tombstone.retainUntil
  keeps : Extends db.tombstones t.tombstones
  ids : ∀ u ∈ t.tombstones, u.id = newId ∨ ∃ v ∈ db.tombstones, v.id = u.id
  identities : ∀ u ∈ t.tombstones, ∀ v ∈ t.tombstones, u.identity = v.identity → u = v

theorem mem_sortedTombstones {t : RetentionTombstone} :
    t ∈ db.sortedTombstones ↔ t ∈ db.tombstones := mem_sortBy

theorem upserted
    (hidentities : ∀ t ∈ db.tombstones, ∀ u ∈ db.tombstones, t.identity = u.identity → t = u)
    (hfresh : ∀ t ∈ db.tombstones, t.id ≠ newId) :
    Upserted db (db.upsertTombstone candidate newId).1 candidate newId
      (db.upsertTombstone candidate newId).2 := by
  unfold Repository.upsertTombstone
  cases hfind : db.sortedTombstones.find? fun item => item.identity = candidate.identity with
  | some existing =>
    have hexisting : existing ∈ db.tombstones :=
      mem_sortedTombstones.mp (List.mem_of_find?_eq_some hfind)
    have hidentity : existing.identity = candidate.identity := by
      simpa using List.find?_some hfind
    refine ⟨rfl, Table.mem_put.mpr (.inl rfl), hidentity, le_max_right _ _, ?_, ?_, ?_⟩
    · intro t ht
      by_cases hid : t.id = existing.id
      · obtain rfl := Table.eq_of_key ht hexisting hid
        exact ⟨_, Table.mem_put.mpr (.inl rfl), rfl, rfl, le_max_left _ _⟩
      · exact ⟨t, Table.mem_put.mpr (.inr ⟨ht, hid⟩), rfl, rfl, le_rfl⟩
    · intro u hu
      rcases Table.mem_put.mp hu with rfl | ⟨hu, _⟩
      · exact .inr ⟨existing, hexisting, rfl⟩
      · exact .inr ⟨u, hu, rfl⟩
    · intro u hu v hv huv
      rcases Table.mem_put.mp hu with rfl | ⟨hu, hune⟩ <;>
        rcases Table.mem_put.mp hv with rfl | ⟨hv, hvne⟩
      · rfl
      · exact absurd (congrArg RetentionTombstone.id (hidentities existing hexisting v hv huv)).symm
          hvne
      · exact absurd (congrArg RetentionTombstone.id (hidentities u hu existing hexisting huv)) hune
      · exact hidentities u hu v hv huv
  | none =>
    have hother : ∀ t ∈ db.tombstones, t.identity ≠ candidate.identity := by
      intro t ht hidentity
      have hne := List.find?_eq_none.mp hfind t (mem_sortedTombstones.mpr ht)
      exact hne (decide_eq_true hidentity)
    refine ⟨rfl, Table.mem_put.mpr (.inl rfl), rfl, le_rfl, ?_, ?_, ?_⟩
    · intro t ht
      exact ⟨t, Table.mem_put.mpr (.inr ⟨ht, hfresh t ht⟩), rfl, rfl, le_rfl⟩
    · intro u hu
      rcases Table.mem_put.mp hu with rfl | ⟨hu, _⟩
      · exact .inl rfl
      · exact .inr ⟨u, hu, rfl⟩
    · intro u hu v hv huv
      rcases Table.mem_put.mp hu with rfl | ⟨hu, _⟩ <;>
        rcases Table.mem_put.mp hv with rfl | ⟨hv, _⟩
      · rfl
      · exact absurd huv.symm (hother v hv)
      · exact absurd huv (hother u hu)
      · exact hidentities u hu v hv huv

end Tombstones

section Cleanup
variable {codecs : Codecs} {db t : Repository} {source : SourceEntity} {request : CleanupRequest}
variable {newId : UUID → UUID} {progress : CleanupProgress}

def Attested (codecs : Codecs) (manifests : Table RetainedManifest.id) (source : SourceEntity)
    (reference : ManifestItemReference) : Prop :=
  ∃ retained payload, manifests.find? reference.manifestId = some retained ∧
    verifiedManifest codecs retained = .ok payload ∧
    verifyReference codecs payload reference source = .ok ()

def Caches (codecs : Codecs) (manifests : Table RetainedManifest.id)
    (payloads : List (UUID × ReportInputManifest × RetainedManifest)) : Prop :=
  ∀ entry ∈ payloads, manifests.find? entry.1 = some entry.2.2 ∧
    verifiedManifest codecs entry.2.2 = .ok entry.2.1

/-- The cache returns what reading and verifying the manifest again would. -/
theorem cachedManifest_cases (h : Caches codecs progress.repository.manifests progress.payloads)
    (manifestId : UUID) :
    (∃ retained payload payloads,
      progress.repository.manifests.find? manifestId = some retained ∧
      verifiedManifest codecs retained = .ok payload ∧
      cachedManifest codecs progress manifestId = .ok ((payload, retained), payloads) ∧
      Caches codecs progress.repository.manifests payloads) ∨
    ((∃ e, cachedManifest codecs progress manifestId = .error e) ∧
      ∀ retained payload, progress.repository.manifests.find? manifestId = some retained →
        verifiedManifest codecs retained ≠ .ok payload) := by
  unfold cachedManifest
  cases hcached : progress.payloads.find? fun entry => entry.1 = manifestId with
  | some entry =>
    obtain ⟨hmanifest, hpayload⟩ := h entry (List.mem_of_find?_eq_some hcached)
    have hkey : entry.1 = manifestId := by simpa using List.find?_some hcached
    rw [hkey] at hmanifest
    exact .inl ⟨entry.2.2, entry.2.1, _, hmanifest, hpayload, rfl, h⟩
  | none =>
    cases hmanifest : progress.repository.manifests.find? manifestId with
    | none =>
      refine .inr ⟨⟨.integrity "retained_manifest_missing", ?_⟩, fun _ _ hsome => by cases hsome⟩
      simp only [Repository.lockManifest, hmanifest]
      rfl
    | some retained =>
      cases hpayload : verifiedManifest codecs retained with
      | error e =>
        refine .inr ⟨⟨e, ?_⟩, fun other payload hsome hok => ?_⟩
        · simp only [Repository.lockManifest, hmanifest, present, ok_bind, hpayload, error_bind]
        · obtain rfl := Option.some_inj.mp hsome
          rw [hpayload] at hok
          cases hok
      | ok payload =>
        refine .inl ⟨retained, payload, progress.payloads ++ [(manifestId, payload, retained)],
          rfl, hpayload, ?_, ?_⟩
        · simp only [Repository.lockManifest, hmanifest, present, ok_bind, hpayload]
          rfl
        · intro entry hentry
          rcases List.mem_append.mp hentry with hentry | hentry
          · exact h entry hentry
          · rw [List.mem_singleton.mp hentry]
            exact ⟨hmanifest, hpayload⟩

theorem Backed.mono {retained : RetainedManifest} {reference : ManifestItemReference}
    (h : Backed codecs db retained reference) (hsources : t.sources = db.sources)
    (hkeeps : Extends db.tombstones t.tombstones) : Backed codecs t retained reference := by
  cases h with
  | live source mem link alone => exact .live source (hsources ▸ mem) link alone
  | tombstone tombstone mem link alone proves =>
    obtain ⟨extended, hmem, hid, hidentity, hretain⟩ := hkeeps tombstone mem
    refine .tombstone extended hmem (hid ▸ link) alone ⟨?_, ?_, ?_, ?_, ?_⟩
    · rw [hidentity, proves.entity]
    · rw [hidentity, proves.hash]
    · rw [hidentity, proves.valueSlice]
    · rw [hidentity]
      exact proves.attests
    · exact proves.outlives.trans hretain

/-- What `uuid4` returns at the references of a store is new, and different at each. -/
structure NewIds (db : Repository) (newId : UUID → UUID) : Prop where
  distinct : ∀ r ∈ db.references, ∀ other ∈ db.references, newId r.id = newId other.id →
    r.id = other.id
  unused : ∀ t ∈ db.tombstones, ∀ r ∈ db.references, t.id ≠ newId r.id

/-- The loop of `cleanup_source` with the references `rest` still to come. -/
structure Underway (codecs : Codecs) (db : Repository) (source : SourceEntity)
    (newId : UUID → UUID) (rest : List ManifestItemReference) (progress : CleanupProgress) :
    Prop where
  sound : Sound codecs progress.repository
  sources : progress.repository.sources = db.sources
  manifests : progress.repository.manifests = db.manifests
  items : progress.repository.references.rows.map item = db.references.rows.map item
  others : ∀ reference entity, entity ≠ source.id → reference.liveSourceEntityId = some entity →
    (reference ∈ progress.repository.references ↔ reference ∈ db.references)
  untouched : ∀ reference ∈ db.references, reference.liveSourceEntityId ≠ some source.id →
    reference ∈ progress.repository.references
  keeps : Extends db.tombstones progress.repository.tombstones
  pending : ∀ reference, reference ∈ rest ↔
    reference ∈ progress.repository.references ∧ reference.liveSourceEntityId = some source.id
  distinct : (rest.map ManifestItemReference.id).Nodup
  newIds : ∀ reference ∈ rest, ∀ other ∈ rest, newId reference.id = newId other.id →
    reference.id = other.id
  fresh : ∀ t ∈ progress.repository.tombstones, ∀ reference ∈ rest, t.id ≠ newId reference.id
  caches : Caches codecs db.manifests progress.payloads

theorem mem_lockLiveReferences {entityId : UUID} {reference : ManifestItemReference} :
    reference ∈ db.lockLiveReferences entityId ↔
      reference ∈ db.references ∧ reference.liveSourceEntityId = some entityId := by
  rw [Repository.lockLiveReferences, mem_sortBy, List.mem_filter, decide_eq_true_iff]
  rfl

theorem Sound.underway (h : Sound codecs db) (hfresh : NewIds db newId) :
    Underway codecs db source newId (db.lockLiveReferences source.id) ⟨db, [], []⟩ where
  sound := h
  sources := rfl
  manifests := rfl
  items := rfl
  others := fun _ _ _ _ => Iff.rfl
  untouched := fun _ h _ => h
  keeps := extends_refl _
  pending := fun _ => mem_lockLiveReferences
  distinct := by
    have hperm := (sortBy_perm (fun item : ManifestItemReference => item.id.toNat)
      (db.references.rows.filter fun item => item.liveSourceEntityId = some source.id)).map
      ManifestItemReference.id
    exact hperm.nodup_iff.mpr (db.references.distinct.sublist (List.filter_sublist.map _))
  newIds := fun reference hreference other hother =>
    hfresh.distinct reference (mem_lockLiveReferences.mp hreference).1 other
      (mem_lockLiveReferences.mp hother).1
  fresh := fun t ht reference hreference =>
    hfresh.unused t ht reference (mem_lockLiveReferences.mp hreference).1
  caches := fun _ h => absurd h List.not_mem_nil

def switched (reference : ManifestItemReference) (tombstoneId : UUID) : ManifestItemReference :=
  { reference with liveSourceEntityId := none, tombstoneId := some tombstoneId }

theorem switchReference_of_mem {reference : ManifestItemReference} (tombstoneId : UUID)
    (h : reference ∈ db.references) :
    db.switchReference reference.id tombstoneId = .ok { db with
      references := db.references.put (switched reference tombstoneId)
      events := db.events ++ [.referenceSwitched] } := by
  rw [Repository.switchReference, Table.find?_of_mem h]
  rfl

theorem attested_switched {retained : RetainedManifest} {reference : ManifestItemReference}
    {kind : TombstoneEntityKind} (tombstoneId : UUID)
    (h : Attests codecs retained reference kind) :
    Attests codecs retained (switched reference tombstoneId) kind := h

theorem switchStep_of_verified {reference : ManifestItemReference} {payload : ReportInputManifest}
    {retained : RetainedManifest} {payloads : List (UUID × ReportInputManifest × RetainedManifest)}
    (hcached : cachedManifest codecs progress reference.manifestId =
      .ok ((payload, retained), payloads))
    (hverify : verifyReference codecs payload reference source = .ok ())
    {t : Repository} {tombstone : RetentionTombstone}
    (hupsert : progress.repository.upsertTombstone (candidateOf source request reference retained)
      (newId reference.id) = (t, tombstone))
    (hmem : reference ∈ t.references) :
    switchStep codecs source request newId progress reference = .ok {
      repository := { t with
        references := t.references.put (switched reference tombstone.id)
        events := t.events ++ [.referenceSwitched] }
      payloads := payloads
      tombstoneIds := progress.tombstoneIds ++ [tombstone.id] } := by
  rw [switchStep, hcached, ok_bind]
  dsimp only
  rw [hverify, ok_bind, hupsert]
  dsimp only
  rw [switchReference_of_mem tombstone.id hmem]
  rfl

theorem mem_switched {references : Table ManifestItemReference.id}
    {reference other : ManifestItemReference} {tombstoneId : UUID} :
    other ∈ references.put (switched reference tombstoneId) ↔
      other = switched reference tombstoneId ∨ (other ∈ references ∧ other.id ≠ reference.id) :=
  Table.mem_put

theorem Underway.switched {reference : ManifestItemReference} {rest : List ManifestItemReference}
    (h : Underway codecs db source newId (reference :: rest) progress)
    {retained : RetainedManifest} {payload : ReportInputManifest} {tombstone : RetentionTombstone}
    {payloads : List (UUID × ReportInputManifest × RetainedManifest)}
    (hmanifest : progress.repository.manifests.find? reference.manifestId = some retained)
    (hpayload : verifiedManifest codecs retained = .ok payload)
    (hverify : verifyReference codecs payload reference source = .ok ())
    (hpayloads : Caches codecs progress.repository.manifests payloads)
    (ht : Upserted progress.repository t (candidateOf source request reference retained)
      (newId reference.id) tombstone) (ids : List UUID) :
    Underway codecs db source newId rest {
      repository := { t with
        references := t.references.put (RetentionRuns.switched reference tombstone.id)
        events := t.events ++ [.referenceSwitched] }
      payloads := payloads
      tombstoneIds := ids } := by
  obtain ⟨hsources, hmanifests, hreferences, hdependencies⟩ :
      t.sources = progress.repository.sources ∧ t.manifests = progress.repository.manifests ∧
      t.references = progress.repository.references ∧
      t.reportDependencies = progress.repository.reportDependencies := by
    rw [ht.repository]
    exact ⟨rfl, rfl, rfl, rfl⟩
  obtain ⟨hreference, hlink⟩ := (h.pending reference).mp List.mem_cons_self
  obtain ⟨hmem, hid⟩ := Table.find?_eq_some.mp hmanifest
  obtain ⟨hnotMem, hdistinct⟩ := List.nodup_cons.mp h.distinct
  obtain ⟨hentity, hhash, _⟩ := verifyReference_iff.mp hverify
  have hproves : Proves codecs retained tombstone
      (RetentionRuns.switched reference tombstone.id) := by
    refine ⟨?_, ?_, ?_, ?_, ht.outlives⟩
    · rw [ht.identity]
      exact hentity.symm
    · rw [ht.identity]
      exact hhash.symm
    · rw [ht.identity]
      rfl
    · rw [ht.identity]
      exact attested_switched _ (attests_of_verified hpayload hverify)
  have hothers : ∀ other, other.liveSourceEntityId ≠ none →
      (other ∈ t.references.put (RetentionRuns.switched reference tombstone.id) ↔
        other ∈ progress.repository.references ∧ other.id ≠ reference.id) := by
    intro other hlive
    rw [mem_switched, hreferences]
    refine or_iff_right ?_
    rintro rfl
    exact hlive rfl
  refine ⟨⟨?_, ?_, ht.identities⟩, hsources.trans h.sources, hmanifests.trans h.manifests, ?_, ?_,
    ?_, h.keeps.trans ht.keeps, ?_, hdistinct, ?_, ?_, h.manifests ▸ hpayloads⟩
  · intro other hother
    rcases mem_switched.mp hother with rfl | ⟨hother, _⟩
    · exact ⟨retained, hmanifests ▸ hmem, hid,
        .tombstone tombstone ht.mem rfl rfl hproves⟩
    · obtain ⟨kept, hkept, hkey, hbacked⟩ := h.sound.references other (hreferences ▸ hother)
      exact ⟨kept, hmanifests ▸ hkept, hkey, hbacked.mono hsources ht.keeps⟩
  · intro id
    rw [hdependencies, hmanifests]
    exact h.sound.dependencies id
  · rw [← h.items, ← hreferences]
    have hin : reference ∈ t.references := by
      rw [hreferences]
      exact hreference
    exact Table.map_put hin rfl rfl
  · intro other entity hne hlive
    rw [hothers other (by rw [hlive]; exact Option.some_ne_none _), ← h.others other entity hne hlive]
    refine and_iff_left_of_imp fun hother hsame => hne ?_
    obtain rfl := Table.eq_of_key hother hreference hsame
    exact Option.some_inj.mp (hlive.symm.trans hlink)
  · intro other hother hne
    have hmemOther := h.untouched other hother hne
    refine mem_switched.mpr (.inr ⟨hreferences ▸ hmemOther, fun hsame => hne ?_⟩)
    rw [Table.eq_of_key hmemOther hreference hsame]
    exact hlink
  · intro other
    constructor
    · intro hother
      obtain ⟨hmemOther, hlive⟩ := (h.pending other).mp (List.mem_cons_of_mem _ hother)
      refine ⟨(hothers other (by rw [hlive]; exact Option.some_ne_none _)).mpr
        ⟨hmemOther, fun hsame => hnotMem ?_⟩, hlive⟩
      exact hsame ▸ List.mem_map_of_mem hother
    · rintro ⟨hother, hlive⟩
      obtain ⟨hmemOther, hne⟩ :=
        (hothers other (by rw [hlive]; exact Option.some_ne_none _)).mp hother
      rcases List.mem_cons.mp ((h.pending other).mpr ⟨hmemOther, hlive⟩) with rfl | hrest
      · exact absurd rfl hne
      · exact hrest
  · exact fun other hother again hagain => h.newIds other (List.mem_cons_of_mem _ hother) again
      (List.mem_cons_of_mem _ hagain)
  · intro u hu other hother
    rcases ht.ids u hu with hnew | ⟨old, hold, hsame⟩
    · rw [hnew]
      intro hequal
      have hsame := h.newIds reference List.mem_cons_self other (List.mem_cons_of_mem _ hother) hequal
      exact hnotMem (hsame ▸ List.mem_map_of_mem hother)
    · rw [← hsame]
      exact h.fresh old hold other (List.mem_cons_of_mem _ hother)

theorem Underway.step {reference : ManifestItemReference} {rest : List ManifestItemReference}
    (h : Underway codecs db source newId (reference :: rest) progress) (request : CleanupRequest) :
    (Attested codecs db.manifests source reference ∧ ∃ next,
      switchStep codecs source request newId progress reference = .ok next ∧
      Underway codecs db source newId rest next) ∨
    (¬Attested codecs db.manifests source reference ∧ ∃ e,
      switchStep codecs source request newId progress reference = .error e) := by
  have hcaches : Caches codecs progress.repository.manifests progress.payloads :=
    h.manifests ▸ h.caches
  rcases cachedManifest_cases hcaches reference.manifestId with
    ⟨retained, payload, payloads, hmanifest, hpayload, hcached, hpayloads⟩ | ⟨⟨e, he⟩, hnone⟩
  · cases hverify : verifyReference codecs payload reference source with
    | error e =>
      refine .inr ⟨?_, e, ?_⟩
      · rintro ⟨other, otherPayload, hother, hotherPayload, hok⟩
        rw [← h.manifests, hmanifest] at hother
        obtain rfl := Option.some_inj.mp hother
        rw [hpayload] at hotherPayload
        obtain rfl := Except.ok.inj hotherPayload
        rw [hverify] at hok
        cases hok
      · rw [switchStep, hcached, ok_bind]
        dsimp only
        rw [hverify, error_bind]
    | ok done =>
      have hfresh : ∀ u ∈ progress.repository.tombstones, u.id ≠ newId reference.id :=
        fun u hu => h.fresh u hu reference List.mem_cons_self
      have ht : Upserted progress.repository _ (candidateOf source request reference retained) _ _ :=
        upserted h.sound.identities hfresh
      have hmem : reference ∈ (progress.repository.upsertTombstone
          (candidateOf source request reference retained) (newId reference.id)).1.references := by
        rw [ht.repository]
        exact ((h.pending reference).mp List.mem_cons_self).1
      exact .inl ⟨⟨retained, payload, h.manifests ▸ hmanifest, hpayload, hverify⟩, _,
        switchStep_of_verified hcached hverify rfl hmem,
        h.switched hmanifest hpayload hverify hpayloads ht _⟩
  · refine .inr ⟨?_, e, ?_⟩
    · rintro ⟨retained, payload, hmanifest, hpayload, _⟩
      exact hnone retained payload (h.manifests ▸ hmanifest) hpayload
    · rw [switchStep, he, error_bind]

theorem Underway.loop {rest : List ManifestItemReference}
    (h : Underway codecs db source newId rest progress) (request : CleanupRequest) :
    ((∀ reference ∈ rest, Attested codecs db.manifests source reference) ∧ ∃ last,
      rest.foldlM (switchStep codecs source request newId) progress = .ok last ∧
      Underway codecs db source newId [] last) ∨
    ((∃ reference ∈ rest, ¬Attested codecs db.manifests source reference) ∧ ∃ e,
      rest.foldlM (switchStep codecs source request newId) progress = .error e) := by
  induction rest generalizing progress with
  | nil => exact .inl ⟨List.forall_mem_nil _, progress, rfl, h⟩
  | cons reference rest ih =>
    rw [List.foldlM_cons]
    rcases h.step request with ⟨hattested, next, hnext, hunderway⟩ |
      ⟨hnot, e, he⟩
    · rw [hnext, ok_bind]
      rcases ih hunderway with ⟨hall, last, hlast, hdone⟩ | ⟨⟨other, hother, hnot⟩, e, he⟩
      · exact .inl ⟨List.forall_mem_cons.mpr ⟨hattested, hall⟩, last, hlast, hdone⟩
      · exact .inr ⟨⟨other, List.mem_cons_of_mem _ hother, hnot⟩, e, he⟩
    · rw [he, error_bind]
      exact .inr ⟨⟨reference, List.mem_cons_self, hnot⟩, e, rfl⟩

/-- What a cleanup that removes `source` leaves. -/
structure Cleaned (codecs : Codecs) (db t : Repository) (source : SourceEntity) : Prop where
  sound : Sound codecs t
  sources : t.sources = db.sources.filter fun row => row.id ≠ source.id
  manifests : t.manifests = db.manifests
  items : t.references.rows.map item = db.references.rows.map item
  others : ∀ reference entity, entity ≠ source.id → reference.liveSourceEntityId = some entity →
    (reference ∈ t.references ↔ reference ∈ db.references)
  untouched : ∀ reference ∈ db.references, reference.liveSourceEntityId ≠ some source.id →
    reference ∈ t.references
  keeps : Extends db.tombstones t.tombstones
  switched : ∀ reference ∈ t.references, reference.liveSourceEntityId ≠ some source.id

theorem Underway.deleteSource (h : Underway codecs db source newId [] progress)
    (hsource : source ∈ db.sources) :
    ∃ t, progress.repository.deleteSource source.id = .ok t ∧ Cleaned codecs db t source := by
  have hnone : ∀ reference ∈ progress.repository.references.rows,
      reference.liveSourceEntityId ≠ some source.id := fun reference hreference hlive =>
    absurd ((h.pending reference).mpr ⟨hreference, hlive⟩) List.not_mem_nil
  have hfind : progress.repository.sources.find? source.id = some source :=
    Table.find?_of_mem (h.sources ▸ hsource)
  refine ⟨{ progress.repository with
    sources := progress.repository.sources.filter fun item => item.id ≠ source.id
    events := progress.repository.events ++ [.sourceDeleted] }, ?_, ?_⟩
  · rw [Repository.deleteSource, require_of hnone, ok_bind, hfind]
    rfl
  · refine ⟨⟨?_, h.sound.dependencies, h.sound.identities⟩, ?_, h.manifests, h.items, h.others,
      h.untouched, h.keeps, hnone⟩
    · intro reference hreference
      obtain ⟨retained, hretained, hid, hbacked⟩ := h.sound.references reference hreference
      refine ⟨retained, hretained, hid, ?_⟩
      cases hbacked with
      | live other mem link alone =>
        refine .live other (Table.mem_filter.mpr ⟨mem, fun hsame => ?_⟩) link alone
        exact hnone reference hreference (hsame ▸ link)
      | tombstone tombstone mem link alone proves => exact .tombstone tombstone mem link alone proves
    · rw [h.sources]

/-- The outcomes of `cleanup_source`. -/
inductive CleanupResult (codecs : Codecs) (db : Repository) (request : CleanupRequest) :
    Except RetentionFailure (Repository × CleanupOutcome) → Prop
  | missing (h : db.sources.find? request.sourceEntityId = none) :
    CleanupResult codecs db request (.error (.integrity "source_missing"))
  | notEligible (source : SourceEntity) (mem : source ∈ db.sources)
    (id : source.id = request.sourceEntityId)
    (early : request.observedAt < source.retentionStartedAt + rawRetention) :
    CleanupResult codecs db request (.ok (db, ⟨false, [], some "not_eligible"⟩))
  | refused (source : SourceEntity) (mem : source ∈ db.sources)
    (id : source.id = request.sourceEntityId)
    (eligible : source.retentionStartedAt + rawRetention ≤ request.observedAt)
    (reference : ManifestItemReference) (held : reference ∈ db.references)
    (link : reference.liveSourceEntityId = some source.id)
    (not : ¬Attested codecs db.manifests source reference) (e : RetentionFailure) :
    CleanupResult codecs db request (.error e)
  | deleted (source : SourceEntity) (mem : source ∈ db.sources)
    (id : source.id = request.sourceEntityId)
    (eligible : source.retentionStartedAt + rawRetention ≤ request.observedAt)
    (attested : ∀ reference ∈ db.references, reference.liveSourceEntityId = some source.id →
      Attested codecs db.manifests source reference)
    (t : Repository) (cleaned : Cleaned codecs db t source) (tombstoneIds : List UUID) :
    CleanupResult codecs db request (.ok (t, ⟨true, tombstoneIds, none⟩))

theorem cleanupSource_result (h : Sound codecs db) (hfresh : NewIds db newId)
    (request : CleanupRequest) :
    CleanupResult codecs db request (cleanupSource codecs db request newId) := by
  unfold cleanupSource Repository.lockSource
  cases hfind : db.sources.find? request.sourceEntityId with
  | none => exact .missing hfind
  | some source =>
    obtain ⟨hmem, hid⟩ := Table.find?_eq_some.mp hfind
    have hpresent : present (some source) (RetentionFailure.integrity "source_missing") =
      .ok source := rfl
    rw [hpresent, ok_bind]
    by_cases hearly : request.observedAt < source.retentionStartedAt + rawRetention
    · rw [if_pos hearly]
      exact .notEligible source hmem hid hearly
    · have hunderway : Underway codecs db source newId (db.lockLiveReferences source.id)
        ⟨db, [], []⟩ := h.underway hfresh
      have hlive : ∀ reference, reference ∈ db.lockLiveReferences source.id ↔
          reference ∈ db.references ∧ reference.liveSourceEntityId = some source.id :=
        hunderway.pending
      rw [if_neg hearly]
      rcases hunderway.loop request with ⟨hall, last, hlast, hdone⟩ |
        ⟨⟨reference, hreference, hnot⟩, e, he⟩
      · obtain ⟨t, ht, hcleaned⟩ := hdone.deleteSource hmem
        rw [hlast, ok_bind, ht, ok_bind]
        exact .deleted source hmem hid (not_lt.mp hearly)
          (fun reference hreference hlink => hall reference ((hlive reference).mpr ⟨hreference, hlink⟩))
          t hcleaned _
      · rw [he, error_bind]
        obtain ⟨hheld, hlink⟩ := (hlive reference).mp hreference
        exact .refused source hmem hid (not_lt.mp hearly) reference hheld hlink hnot e

end Cleanup

section Expiry
variable {codecs : Codecs} {db : Repository}

theorem append_replicate (events : List Event) (e : Event) (n : ℕ) :
    events ++ List.replicate 1 e ++ List.replicate n e = events ++ List.replicate (n + 1) e := by
  rw [List.append_assoc, List.replicate_append_replicate, Nat.add_comm]

def withoutDependencies (db : Repository) (ids : List UUID) : Repository :=
  { db with
    reportDependencies := db.reportDependencies.filter (· ∉ ids)
    events := db.events ++ List.replicate ids.length .reportDependenciesDeleted }

theorem deleteReportDependencies_all {ids : List UUID} (hids : ids.Nodup)
    (h : ∀ id ∈ ids, id ∈ db.reportDependencies) :
    ids.foldlM Repository.deleteReportDependencies db = .ok (withoutDependencies db ids) := by
  refine foldlM_closed (P := fun db ids => ids.Nodup ∧ ∀ id ∈ ids, id ∈ db.reportDependencies)
    ?_ ?_ ⟨hids, h⟩
  · intro db
    simp [withoutDependencies]
  · rintro db id ids ⟨hnodup, hall⟩
    obtain ⟨hid, hrest⟩ := List.nodup_cons.mp hnodup
    refine ⟨?_, ⟨hrest, ?_⟩, ?_⟩
    · rw [Repository.deleteReportDependencies, require_of (hall id List.mem_cons_self), ok_bind,
        withoutDependencies, ← Finset.filter_ne']
      simp only [List.mem_singleton]
      rfl
    · intro other hother
      refine Finset.mem_filter.mpr ⟨hall other (List.mem_cons_of_mem _ hother), ?_⟩
      rw [List.mem_singleton]
      rintro rfl
      exact hid hother
    · simp only [withoutDependencies, List.length_cons, List.length_nil, Nat.zero_add]
      rw [append_replicate, Finset.filter_filter]
      simp only [List.mem_cons, List.not_mem_nil, or_false, not_or]

def withoutItems (db : Repository) (ids : List UUID) : Repository :=
  { db with
    references := db.references.filter fun reference => reference.manifestId ∉ ids
    events := db.events ++ List.replicate ids.length .manifestItemsDeleted }

theorem deleteManifestItems_all {ids : List UUID} (h : ∀ id ∈ ids, id ∉ db.reportDependencies) :
    ids.foldlM Repository.deleteManifestItems db = .ok (withoutItems db ids) := by
  refine foldlM_closed (P := fun db ids => ∀ id ∈ ids, id ∉ db.reportDependencies) ?_ ?_ h
  · intro db
    simp [withoutItems, Table.filter_eq_self]
  · intro db id ids hall
    refine ⟨?_, fun other hother => hall other (List.mem_cons_of_mem _ hother), ?_⟩
    · rw [Repository.deleteManifestItems, require_of (hall id List.mem_cons_self), ok_bind,
        withoutItems]
      simp only [List.mem_singleton]
      rfl
    · simp only [withoutItems, List.length_cons, List.length_nil, Nat.zero_add]
      rw [append_replicate, Table.filter_notMem_cons]

def withoutManifests (db : Repository) (ids : List UUID) : Repository :=
  { db with
    manifests := db.manifests.filter fun manifest => manifest.id ∉ ids
    events := db.events ++ List.replicate ids.length .manifestDeleted }

theorem deleteManifest_all {ids : List UUID} (hids : ids.Nodup)
    (hitems : ∀ id ∈ ids, ∀ reference ∈ db.references.rows, reference.manifestId ≠ id)
    (h : ∀ id ∈ ids, ∃ manifest ∈ db.manifests, manifest.id = id) :
    ids.foldlM Repository.deleteManifest db = .ok (withoutManifests db ids) := by
  refine foldlM_closed (P := fun db ids => ids.Nodup ∧
    (∀ id ∈ ids, ∀ reference ∈ db.references.rows, reference.manifestId ≠ id) ∧
    ∀ id ∈ ids, ∃ manifest ∈ db.manifests, manifest.id = id) ?_ ?_ ⟨hids, hitems, h⟩
  · intro db
    simp [withoutManifests, Table.filter_eq_self]
  · rintro db id ids ⟨hnodup, hitems, hall⟩
    obtain ⟨hid, hrest⟩ := List.nodup_cons.mp hnodup
    have hleft := Table.exists_filter_notMem hid hall
    obtain ⟨manifest, hmanifest, rfl⟩ := hall id List.mem_cons_self
    refine ⟨?_, ⟨hrest, fun other hother => hitems other (List.mem_cons_of_mem _ hother), hleft⟩, ?_⟩
    · rw [Repository.deleteManifest, require_of (hitems _ List.mem_cons_self), ok_bind,
        Table.find?_of_mem hmanifest, withoutManifests]
      simp only [List.mem_singleton]
      rfl
    · simp only [withoutManifests, List.length_cons, List.length_nil, Nat.zero_add]
      rw [append_replicate, Table.filter_notMem_cons]

def withoutTombstones (db : Repository) (ids : List UUID) : Repository :=
  { db with
    tombstones := db.tombstones.filter fun tombstone => tombstone.id ∉ ids
    events := db.events ++ List.replicate ids.length .tombstoneDeleted }

theorem deleteTombstone_all {ids : List UUID} (hids : ids.Nodup)
    (hitems : ∀ id ∈ ids, db.Unreferenced id)
    (h : ∀ id ∈ ids, ∃ tombstone ∈ db.tombstones, tombstone.id = id) :
    ids.foldlM Repository.deleteTombstone db = .ok (withoutTombstones db ids) := by
  refine foldlM_closed (P := fun db ids => ids.Nodup ∧ (∀ id ∈ ids, db.Unreferenced id) ∧
    ∀ id ∈ ids, ∃ tombstone ∈ db.tombstones, tombstone.id = id) ?_ ?_ ⟨hids, hitems, h⟩
  · intro db
    simp [withoutTombstones, Table.filter_eq_self]
  · rintro db id ids ⟨hnodup, hitems, hall⟩
    obtain ⟨hid, hrest⟩ := List.nodup_cons.mp hnodup
    have hleft := Table.exists_filter_notMem hid hall
    obtain ⟨tombstone, htombstone, rfl⟩ := hall id List.mem_cons_self
    refine ⟨?_, ⟨hrest, fun other hother => hitems other (List.mem_cons_of_mem _ hother), hleft⟩, ?_⟩
    · rw [Repository.deleteTombstone, require_of (hitems _ List.mem_cons_self), ok_bind,
        Table.find?_of_mem htombstone, withoutTombstones]
      simp only [List.mem_singleton]
      rfl
    · simp only [withoutTombstones, List.length_cons, List.length_nil, Nat.zero_add]
      rw [append_replicate, Table.filter_notMem_cons]

def expiredIds (db : Repository) (observedAt : Instant) : List UUID :=
  (db.lockExpiredManifests observedAt).map RetainedManifest.id

theorem mem_expiredIds {observedAt : Instant} {id : UUID} :
    id ∈ expiredIds db observedAt ↔
      ∃ manifest ∈ db.manifests, manifest.retainUntil ≤ observedAt ∧ manifest.id = id := by
  simp only [expiredIds, Repository.lockExpiredManifests, List.mem_map, mem_sortBy,
    List.mem_filter, decide_eq_true_eq, and_assoc]
  rfl

theorem expiredIds_nodup (observedAt : Instant) : (expiredIds db observedAt).Nodup :=
  ((sortBy_perm _ _).map RetainedManifest.id).nodup_iff.mpr
    (db.manifests.distinct.sublist (List.filter_sublist.map _))

theorem id_mem_expiredIds {observedAt : Instant} {manifest : RetainedManifest}
    (h : manifest ∈ db.manifests) :
    manifest.id ∈ expiredIds db observedAt ↔ manifest.retainUntil ≤ observedAt := by
  rw [mem_expiredIds]
  constructor
  · rintro ⟨other, hother, hexpired, hid⟩
    rw [← Table.eq_of_key hother h hid]
    exact hexpired
  · exact fun hexpired => ⟨manifest, h, hexpired, rfl⟩

structure Expired (db t : Repository) (observedAt : Instant) : Prop where
  sources : t.sources = db.sources
  manifests : t.manifests = db.manifests.filter fun row => observedAt < row.retainUntil
  references : t.references =
    db.references.filter fun row => row.manifestId ∉ expiredIds db observedAt
  dependencies : t.reportDependencies =
    db.reportDependencies.filter (· ∉ expiredIds db observedAt)
  tombstones : t.tombstones =
    db.tombstones.filter fun row => ¬(t.Unreferenced row.id ∧ row.retainUntil ≤ observedAt)

theorem expireRetainedReports_ok {codecs : Codecs} {db : Repository} (h : Sound codecs db)
    (observedAt : Instant) :
    ∃ t outcome, expireRetainedReports db observedAt = .ok (t, outcome) ∧
      Expired db t observedAt := by
  have hexists : ∀ id ∈ expiredIds db observedAt, ∃ manifest ∈ db.manifests, manifest.id = id := by
    intro id hid
    obtain ⟨manifest, hmanifest, _, hkey⟩ := mem_expiredIds.mp hid
    exact ⟨manifest, hmanifest, hkey⟩
  have hnodup : (expiredIds db observedAt).Nodup := expiredIds_nodup observedAt
  let first := withoutDependencies db (expiredIds db observedAt)
  let second := withoutItems first (expiredIds db observedAt)
  let third := withoutManifests second (expiredIds db observedAt)
  let orphans := third.lockUnreferencedTombstones observedAt
  have hfirst : (db.lockExpiredManifests observedAt).foldlM
      (fun db manifest => db.deleteReportDependencies manifest.id) db = .ok first :=
    List.foldlM_map.symm.trans (deleteReportDependencies_all hnodup fun id hid =>
      (h.dependencies id).mpr (hexists id hid))
  have hsecond : (db.lockExpiredManifests observedAt).foldlM
      (fun db manifest => db.deleteManifestItems manifest.id) first = .ok second :=
    List.foldlM_map.symm.trans (deleteManifestItems_all fun id hid hdependency =>
      (Finset.mem_filter.mp hdependency).2 hid)
  have hthird : (db.lockExpiredManifests observedAt).foldlM
      (fun db manifest => db.deleteManifest manifest.id) second = .ok third := by
    refine List.foldlM_map.symm.trans (deleteManifest_all hnodup ?_ hexists)
    rintro id hid reference hreference rfl
    exact (Table.mem_filter.mp hreference).2 hid
  have horphan : ∀ tombstone, tombstone ∈ orphans ↔ tombstone ∈ db.tombstones ∧
      third.Unreferenced tombstone.id ∧ tombstone.retainUntil ≤ observedAt := by
    intro tombstone
    refine List.mem_filter.trans ?_
    rw [mem_sortedTombstones, decide_eq_true_iff]
    rfl
  have horphanIds : (orphans.map RetentionTombstone.id).Nodup :=
    (((sortBy_perm _ _).map RetentionTombstone.id).nodup_iff.mpr third.tombstones.distinct).sublist
      (List.filter_sublist.map _)
  have hlast : orphans.foldlM (fun db tombstone => db.deleteTombstone tombstone.id) third =
      .ok (withoutTombstones third (orphans.map RetentionTombstone.id)) := by
    refine List.foldlM_map.symm.trans (deleteTombstone_all horphanIds ?_ ?_)
    · intro id hid
      obtain ⟨tombstone, htombstone, rfl⟩ := List.mem_map.mp hid
      exact ((horphan tombstone).mp htombstone).2.1
    · intro id hid
      obtain ⟨tombstone, htombstone, rfl⟩ := List.mem_map.mp hid
      exact ⟨tombstone, ((horphan tombstone).mp htombstone).1, rfl⟩
  refine ⟨withoutTombstones third (orphans.map RetentionTombstone.id),
    ⟨expiredIds db observedAt, orphans.map (·.id)⟩, ?_, ⟨rfl, ?_, rfl, rfl, ?_⟩⟩
  · rw [expireRetainedReports, hfirst, ok_bind, hsecond, ok_bind, hthird, ok_bind]
    exact bind_eq_ok.mpr ⟨_, hlast, rfl⟩
  · refine Table.filter_congr fun manifest hmanifest => ?_
    have hexpired : manifest.id ∈ expiredIds db observedAt ↔ manifest.retainUntil ≤ observedAt :=
      id_mem_expiredIds hmanifest
    rw [hexpired, not_le]
  · refine Table.filter_congr fun tombstone htombstone => not_congr ?_
    rw [List.mem_map]
    constructor
    · rintro ⟨other, hother, hid⟩
      obtain ⟨hmem, hdue⟩ := (horphan other).mp hother
      obtain rfl := Table.eq_of_key hmem htombstone hid
      exact hdue
    · exact fun hdue => ⟨tombstone, (horphan tombstone).mpr ⟨htombstone, hdue⟩, rfl⟩

end Expiry

section Runs
variable {codecs : Codecs} {db t u : Repository} {commands : List RetentionCommand}

def Fresh (db : Repository) : RetentionCommand → Prop
  | .cleanup _ newId => NewIds db newId
  | .expire _ => True

/-- Every expiry of a run comes before the retention of the manifest has elapsed. -/
def Retained (commands : List RetentionCommand) (manifest : RetainedManifest) : Prop :=
  ∀ observedAt, .expire observedAt ∈ commands → observedAt < manifest.retainUntil

def Due (source : SourceEntity) : RetentionCommand → Prop
  | .cleanup request _ => request.sourceEntityId = source.id ∧
    source.retentionStartedAt + rawRetention ≤ request.observedAt
  | .expire _ => False

/-- A reference to the source that is still retained does not verify. -/
def Withheld (codecs : Codecs) (db : Repository) (source : SourceEntity)
    (commands : List RetentionCommand) : Prop :=
  ∃ reference ∈ db.references, reference.liveSourceEntityId = some source.id ∧
    (∀ manifest ∈ db.manifests, manifest.id = reference.manifestId → Retained commands manifest) ∧
    ¬Attested codecs db.manifests source reference

structure Kept (codecs : Codecs) (db : Repository) (commands : List RetentionCommand)
    (t : Repository) : Prop where
  sound : Sound codecs t
  manifests : ∀ manifest, manifest ∈ t.manifests ↔ manifest ∈ db.manifests ∧
    Retained commands manifest
  items : ∀ row, (∃ reference ∈ t.references, item reference = row) ↔
    ∃ reference ∈ db.references, item reference = row ∧
      ∃ manifest ∈ t.manifests, manifest.id = reference.manifestId
  sources : ∀ source, source ∈ t.sources ↔ source ∈ db.sources ∧
    ∀ before command after, commands = before ++ command :: after → Due source command →
      Withheld codecs db source before
  live : ∀ source ∈ t.sources, ∀ reference, reference.liveSourceEntityId = some source.id →
    (reference ∈ t.references ↔ reference ∈ db.references ∧
      ∃ manifest ∈ t.manifests, manifest.id = reference.manifestId)

theorem Expired.unexpired {observedAt : Instant} (h : Sound codecs db)
    (he : Expired db t observedAt) {reference : ManifestItemReference}
    (hreference : reference ∈ db.references) :
    reference ∈ t.references ↔ ∃ manifest ∈ t.manifests, manifest.id = reference.manifestId := by
  obtain ⟨manifest, hmanifest, hid, _⟩ := h.references reference hreference
  rw [he.references, Table.mem_filter, ← hid, id_mem_expiredIds hmanifest, not_le, he.manifests]
  constructor
  · rintro ⟨_, hlater⟩
    exact ⟨manifest, Table.mem_filter.mpr ⟨hmanifest, hlater⟩, rfl⟩
  · rintro ⟨other, hother, hsame⟩
    obtain ⟨hmem, hlater⟩ := Table.mem_filter.mp hother
    obtain rfl := Table.eq_of_key hmem hmanifest hsame
    exact ⟨hreference, hlater⟩

theorem Expired.mem_references {observedAt : Instant} (he : Expired db t observedAt)
    {reference : ManifestItemReference} (h : reference ∈ t.references) :
    reference ∈ db.references := by
  rw [he.references] at h
  exact (Table.mem_filter.mp h).1

theorem Expired.sound {observedAt : Instant} (h : Sound codecs db)
    (he : Expired db t observedAt) : Sound codecs t where
  references := by
    intro reference hreference
    have hbefore := he.mem_references hreference
    obtain ⟨manifest, hmanifest, hid⟩ := (he.unexpired h hbefore).mp hreference
    obtain ⟨retained, hretained, hkey, hbacked⟩ := h.references reference hbefore
    have hmem : manifest ∈ db.manifests := by
      rw [he.manifests] at hmanifest
      exact (Table.mem_filter.mp hmanifest).1
    obtain rfl := Table.eq_of_key hmem hretained (hid.trans hkey.symm)
    refine ⟨manifest, hmanifest, hid, ?_⟩
    cases hbacked with
    | live source mem link alone => exact .live source (he.sources ▸ mem) link alone
    | tombstone tombstone mem link alone proves =>
      refine .tombstone tombstone ?_ link alone proves
      rw [he.tombstones]
      refine Table.mem_filter.mpr ⟨mem, fun hdue => ?_⟩
      exact hdue.1 reference hreference link
  dependencies := by
    intro id
    rw [he.dependencies, Finset.mem_filter, h.dependencies, he.manifests]
    constructor
    · rintro ⟨⟨manifest, hmanifest, rfl⟩, hlater⟩
      rw [id_mem_expiredIds hmanifest, not_le] at hlater
      exact ⟨manifest, Table.mem_filter.mpr ⟨hmanifest, hlater⟩, rfl⟩
    · rintro ⟨manifest, hmanifest, rfl⟩
      obtain ⟨hmem, hlater⟩ := Table.mem_filter.mp hmanifest
      refine ⟨⟨manifest, hmem, rfl⟩, ?_⟩
      rw [id_mem_expiredIds hmem, not_le]
      exact hlater
  identities := by
    intro first hfirst second hsecond hidentity
    rw [he.tombstones] at hfirst hsecond
    exact h.identities first (Table.mem_filter.mp hfirst).1 second (Table.mem_filter.mp hsecond).1
      hidentity

theorem manifestId_of_item {reference other : ManifestItemReference}
    (h : item reference = item other) : reference.manifestId = other.manifestId := by
  have hmanifest := congrArg ManifestItemReference.manifestId h
  exact hmanifest

theorem retained_concat {command : RetentionCommand} {manifest : RetainedManifest} :
    Retained (commands ++ [command]) manifest ↔
      Retained commands manifest ∧ Retained [command] manifest := by
  constructor
  · intro h
    exact ⟨fun observedAt hmem => h observedAt (List.mem_append_left _ hmem),
      fun observedAt hmem => h observedAt (List.mem_append_right _ hmem)⟩
  · rintro ⟨hbefore, hlast⟩ observedAt hmem
    rcases List.mem_append.mp hmem with hmem | hmem
    · exact hbefore observedAt hmem
    · exact hlast observedAt hmem

theorem forall_places_concat {P : List RetentionCommand → RetentionCommand → Prop}
    {command : RetentionCommand} :
    (∀ before c after, commands ++ [command] = before ++ c :: after → P before c) ↔
      (∀ before c after, commands = before ++ c :: after → P before c) ∧ P commands command := by
  constructor
  · intro h
    refine ⟨fun before c after hsplit => h before c (after ++ [command]) ?_, h commands command [] rfl⟩
    rw [hsplit, List.append_assoc, List.cons_append]
  · rintro ⟨hbefore, hlast⟩ before c after hsplit
    rcases List.eq_nil_or_concat after with rfl | ⟨rest, last, rfl⟩
    · obtain ⟨rfl, hsame⟩ := List.append_inj' hsplit rfl
      rw [← (List.cons.inj hsame).1]
      exact hlast
    · have hshift : commands ++ [command] = (before ++ c :: rest) ++ [last] := by
        rw [hsplit, List.concat_eq_append, List.append_assoc, List.cons_append]
      exact hbefore before c rest (List.append_inj' hshift rfl).1

theorem Sound.kept (h : Sound codecs db) : Kept codecs db [] db where
  sound := h
  manifests := fun _ => (and_iff_left fun _ hmem => absurd hmem List.not_mem_nil).symm
  items := by
    intro row
    constructor
    · rintro ⟨reference, hreference, hrow⟩
      obtain ⟨manifest, hmanifest, hid, _⟩ := h.references reference hreference
      exact ⟨reference, hreference, hrow, manifest, hmanifest, hid⟩
    · rintro ⟨reference, hreference, hrow, _⟩
      exact ⟨reference, hreference, hrow⟩
  sources := by
    intro source
    refine (and_iff_left fun before command after hsplit => ?_).symm
    exact absurd hsplit (by simp)
  live := by
    intro source _ reference _
    refine (and_iff_left_of_imp fun hreference => ?_).symm
    obtain ⟨manifest, hmanifest, hid, _⟩ := h.references reference hreference
    exact ⟨manifest, hmanifest, hid⟩

/-- The manifest of a reference is retained exactly when every manifest with its
    identity is. -/
theorem Kept.manifest_iff (hs : Sound codecs db) (h : Kept codecs db commands t)
    {reference : ManifestItemReference} (hreference : reference ∈ db.references) :
    (∃ manifest ∈ t.manifests, manifest.id = reference.manifestId) ↔
      ∀ manifest ∈ db.manifests, manifest.id = reference.manifestId →
        Retained commands manifest := by
  obtain ⟨kept, hkept, hkey, _⟩ := hs.references reference hreference
  constructor
  · rintro ⟨manifest, hmanifest, hid⟩ other hother hsame
    obtain ⟨hmem, hretained⟩ := (h.manifests manifest).mp hmanifest
    rw [Table.eq_of_key hother hmem (hsame.trans hid.symm)]
    exact hretained
  · intro hall
    exact ⟨kept, (h.manifests kept).mpr ⟨hkept, hall kept hkept hkey⟩, hkey⟩

theorem Kept.attested_iff (h : Kept codecs db commands t) {source : SourceEntity}
    {reference : ManifestItemReference}
    (hmanifest : ∃ manifest ∈ t.manifests, manifest.id = reference.manifestId) :
    Attested codecs t.manifests source reference ↔
      Attested codecs db.manifests source reference := by
  obtain ⟨manifest, hmem, hid⟩ := hmanifest
  have hsame : t.manifests.find? reference.manifestId = db.manifests.find? reference.manifestId := by
    rw [← hid, Table.find?_of_mem hmem, Table.find?_of_mem ((h.manifests manifest).mp hmem).1]
  rw [Attested, Attested, hsame]

/-- In the store that is left, a reference that does not verify is one that withholds
    the source from the start. -/
theorem Kept.withheld_iff (hs : Sound codecs db) (h : Kept codecs db commands t)
    {source : SourceEntity} (hsource : source ∈ t.sources) :
    (∃ reference ∈ t.references, reference.liveSourceEntityId = some source.id ∧
      ¬Attested codecs t.manifests source reference) ↔ Withheld codecs db source commands := by
  constructor
  · rintro ⟨reference, hreference, hlink, hnot⟩
    obtain ⟨hbefore, hmanifest⟩ := (h.live source hsource reference hlink).mp hreference
    rw [h.attested_iff hmanifest] at hnot
    exact ⟨reference, hbefore, hlink, (h.manifest_iff hs hbefore).mp hmanifest, hnot⟩
  · rintro ⟨reference, hbefore, hlink, hretained, hnot⟩
    have hmanifest := (h.manifest_iff hs hbefore).mpr hretained
    rw [← h.attested_iff hmanifest] at hnot
    exact ⟨reference, (h.live source hsource reference hlink).mpr ⟨hbefore, hmanifest⟩, hlink, hnot⟩

theorem Kept.concat (h : Kept codecs db commands t) {command : RetentionCommand}
    (hretained : ∀ manifest, Retained [command] manifest) (hsound : Sound codecs u)
    (hmanifests : u.manifests = t.manifests)
    (hitems : u.references.rows.map item = t.references.rows.map item)
    (hsources : ∀ source, source ∈ u.sources ↔ source ∈ t.sources ∧
      (Due source command → Withheld codecs db source commands))
    (hlive : ∀ source ∈ u.sources, ∀ reference, reference.liveSourceEntityId = some source.id →
      (reference ∈ u.references ↔ reference ∈ t.references)) :
    Kept codecs db (commands ++ [command]) u where
  sound := hsound
  manifests := by
    intro manifest
    rw [hmanifests, h.manifests, retained_concat, and_iff_left (hretained manifest)]
  items := by
    intro row
    have hrow : (∃ reference ∈ u.references, item reference = row) ↔
        ∃ reference ∈ t.references, item reference = row := by
      have hmem : row ∈ u.references.rows.map item ↔ row ∈ t.references.rows.map item := by
        rw [hitems]
      exact List.mem_map.symm.trans (hmem.trans List.mem_map)
    rw [hrow, h.items, hmanifests]
  sources := by
    intro source
    rw [hsources, h.sources, forall_places_concat, and_assoc]
  live := by
    intro source hsource reference hlink
    rw [hlive source hsource reference hlink, hmanifests]
    exact h.live source ((hsources source).mp hsource).1 reference hlink

theorem Kept.cleanup (hs : Sound codecs db) (h : Kept codecs db commands t)
    {request : CleanupRequest} {newId : UUID → UUID} (hfresh : Fresh t (.cleanup request newId)) :
    Kept codecs db (commands ++ [.cleanup request newId])
      (attempt (retentionStep codecs) t (.cleanup request newId)) := by
  have hretained : ∀ manifest, Retained [.cleanup request newId] manifest :=
    fun manifest observedAt hmem => by cases List.mem_singleton.mp hmem
  have hresult := cleanupSource_result h.sound hfresh request
  have hsame : (∀ source ∈ t.sources, Due source (.cleanup request newId) →
      Withheld codecs db source commands) →
      Kept codecs db (commands ++ [.cleanup request newId]) t := fun hdue =>
    h.concat hretained h.sound rfl rfl
      (fun source => (and_iff_left_of_imp (hdue source)).symm) fun _ _ _ _ => Iff.rfl
  cases hcleanup : cleanupSource codecs t request newId with
  | error e =>
    have hstep : retentionStep codecs t (.cleanup request newId) = .error e := by
      rw [retentionStep, hcleanup, error_bind]
    rw [attempt_of_error hstep]
    rw [hcleanup] at hresult
    refine hsame fun source hsource hdue => ?_
    cases hresult with
    | missing hnone => exact absurd hdue.1.symm (Table.find?_eq_none.mp hnone source hsource)
    | refused other mem id eligible reference held link not _ =>
      obtain rfl := Table.eq_of_key mem hsource (id.trans hdue.1)
      exact (h.withheld_iff hs hsource).mp ⟨reference, held, link, not⟩
  | ok result =>
    obtain ⟨after, outcome⟩ := result
    have hstep : retentionStep codecs t (.cleanup request newId) = .ok after := by
      rw [retentionStep, hcleanup, ok_bind]
      rfl
    rw [attempt_of_ok hstep]
    rw [hcleanup] at hresult
    cases hresult with
    | notEligible source mem id early =>
      refine hsame fun other hother hdue => ?_
      obtain rfl := Table.eq_of_key mem hother (id.trans hdue.1)
      exact absurd hdue.2 (not_le.mpr early)
    | deleted source mem id eligible attested _ cleaned tombstoneIds =>
      refine h.concat hretained cleaned.sound cleaned.manifests cleaned.items ?_ ?_
      · intro other
        rw [cleaned.sources, Table.mem_filter]
        refine and_congr_right fun hother => ⟨fun hne hdue => ?_, fun hdue hsame => ?_⟩
        · exact absurd (hdue.1.symm.trans id.symm) hne
        · obtain rfl := Table.eq_of_key hother mem hsame
          obtain ⟨reference, hreference, hlink, hnot⟩ :=
            (h.withheld_iff hs mem).mpr (hdue ⟨id.symm, eligible⟩)
          exact hnot (attested reference hreference hlink)
      · intro other hother reference hlink
        rw [cleaned.sources] at hother
        exact cleaned.others reference other.id (Table.mem_filter.mp hother).2 hlink

theorem Kept.expiry (h : Kept codecs db commands t) (observedAt : Instant) :
    Kept codecs db (commands ++ [.expire observedAt])
      (attempt (retentionStep codecs) t (.expire observedAt)) := by
  obtain ⟨after, outcome, hok, hexpired⟩ := expireRetainedReports_ok h.sound observedAt
  have hstep : retentionStep codecs t (.expire observedAt) = .ok after := by
    rw [retentionStep, hok, ok_bind]
    rfl
  rw [attempt_of_ok hstep]
  have hmanifests : ∀ manifest, manifest ∈ after.manifests ↔
      manifest ∈ t.manifests ∧ observedAt < manifest.retainUntil := by
    intro manifest
    rw [hexpired.manifests, Table.mem_filter]
  refine ⟨hexpired.sound h.sound, ?_, ?_, ?_, ?_⟩
  · intro manifest
    have hlast : Retained [.expire observedAt] manifest ↔ observedAt < manifest.retainUntil := by
      constructor
      · exact fun hall => hall observedAt (List.mem_singleton.mpr rfl)
      · intro hlater other hmem
        obtain rfl := RetentionCommand.expire.inj (List.mem_singleton.mp hmem)
        exact hlater
    rw [hmanifests, h.manifests, retained_concat, hlast, and_assoc]
  · intro row
    constructor
    · rintro ⟨reference, hreference, hrow⟩
      have hbefore := hexpired.mem_references hreference
      obtain ⟨manifest, hmanifest, hid⟩ := (hexpired.unexpired h.sound hbefore).mp hreference
      obtain ⟨first, hfirst, hfirstRow, _⟩ := (h.items row).mp ⟨reference, hbefore, hrow⟩
      exact ⟨first, hfirst, hfirstRow, manifest, hmanifest,
        hid.trans (manifestId_of_item (hrow.trans hfirstRow.symm))⟩
    · rintro ⟨first, hfirst, hrow, manifest, hmanifest, hid⟩
      obtain ⟨reference, hreference, hreferenceRow⟩ := (h.items row).mpr
        ⟨first, hfirst, hrow, manifest, ((hmanifests manifest).mp hmanifest).1, hid⟩
      refine ⟨reference, (hexpired.unexpired h.sound hreference).mpr ⟨manifest, hmanifest, ?_⟩,
        hreferenceRow⟩
      exact hid.trans (manifestId_of_item (hrow.trans hreferenceRow.symm))
  · intro source
    rw [hexpired.sources, h.sources, forall_places_concat]
    exact and_congr_right fun _ => (and_iff_left False.elim).symm
  · intro source hsource reference hlink
    rw [hexpired.sources] at hsource
    have hlive := h.live source hsource reference hlink
    constructor
    · intro hreference
      have hbefore := hexpired.mem_references hreference
      exact ⟨(hlive.mp hbefore).1, (hexpired.unexpired h.sound hbefore).mp hreference⟩
    · rintro ⟨hfirst, manifest, hmanifest, hid⟩
      have hbefore := hlive.mpr ⟨hfirst, manifest, ((hmanifests manifest).mp hmanifest).1, hid⟩
      exact (hexpired.unexpired h.sound hbefore).mpr ⟨manifest, hmanifest, hid⟩

theorem run_kept (h : Sound codecs db) (commands : List RetentionCommand)
    (hfresh : Meets (retentionStep codecs) Fresh db commands) :
    Kept codecs db commands (run (retentionStep codecs) db commands) := by
  induction commands using List.reverseRecOn with
  | nil => exact h.kept
  | append_singleton commands command ih =>
    obtain ⟨hbefore, hlast⟩ := meets_append.mp hfresh
    rw [run_append]
    cases command with
    | cleanup request newId => exact (ih hbefore).cleanup h hlast.1
    | expire observedAt => exact (ih hbefore).expiry observedAt

/-- In every run of cleanups and expiries a manifest stays, with all its items, until an
    expiry at or after its retention; each item that stays is backed by its live source
    or by a tombstone that the manifest attests; and no expiry ever fails. -/
theorem retained_until_expiry (codecs : Codecs) (db : Repository) (h : Sound codecs db)
    (commands : List RetentionCommand)
    (hfresh : Meets (retentionStep codecs) Fresh db commands) :
    Sound codecs (run (retentionStep codecs) db commands) ∧
    (∀ manifest, manifest ∈ (run (retentionStep codecs) db commands).manifests ↔
      manifest ∈ db.manifests ∧ Retained commands manifest) ∧
    (∀ row, (∃ reference ∈ (run (retentionStep codecs) db commands).references,
        item reference = row) ↔
      ∃ reference ∈ db.references, item reference = row ∧
        ∃ manifest ∈ (run (retentionStep codecs) db commands).manifests,
          manifest.id = reference.manifestId) ∧
    ∀ observedAt, ∃ t outcome,
      expireRetainedReports (run (retentionStep codecs) db commands) observedAt = .ok (t, outcome) ∧
      Sound codecs t := by
  have hkept := run_kept h commands hfresh
  refine ⟨hkept.sound, hkept.manifests, hkept.items, fun observedAt => ?_⟩
  obtain ⟨t, outcome, hok, hexpired⟩ := expireRetainedReports_ok hkept.sound observedAt
  exact ⟨t, outcome, hok, hexpired.sound hkept.sound⟩

/-- A source is removed by its first cleanup that is due and at which no reference that
    is still retained fails to verify, and by nothing else. -/
theorem source_remains_iff (codecs : Codecs) (db : Repository) (h : Sound codecs db)
    (commands : List RetentionCommand)
    (hfresh : Meets (retentionStep codecs) Fresh db commands) (source : SourceEntity) :
    source ∈ (run (retentionStep codecs) db commands).sources ↔
      source ∈ db.sources ∧ ∀ before command after, commands = before ++ command :: after →
        Due source command → Withheld codecs db source before :=
  (run_kept h commands hfresh).sources source

end Runs

section Sample
open ManifestRoundTrip (sampleCodecs build_reads projectReport_iff)
open ReportAccounting (sampleForm sampleGzip sampleInput sampleCoverage sampleDigest
  projectReport_of normalizeManifest_facts)

theorem firstSequence_fits : 1 < 2 ^ 53 := by decide

def cutValues : CoverageValues :=
  { sampleCoverage.toCoverageValues with
    cutoffPublicationSequence := some ⟨1, firstSequence_fits⟩
    cutoffPublicationManifestId := some 9
    cutoffPublicationManifestHash := some sampleDigest }

theorem cutValues_valid : cutValues.validateCounts = .ok () := by decide +kernel

def sampleCut : SourceCoverage := ⟨cutValues, cutValues_valid⟩

def cutInput : ReportInputManifest := { sampleInput with sourceCoverage := [sampleCut] }

theorem cutInput_valid : cutInput.validateWindowsAndRecords = .ok () := by decide +kernel

theorem cutInput_verified : verifyCoverage cutInput = .ok () := by decide +kernel

def retainedCut (envelope : ManifestEnvelope) : RetainedManifest :=
  ⟨3, envelope, seconds (180 * 86400)⟩

theorem retainedCut_verified : ∃ envelope payload,
    verifiedManifest sampleCodecs (retainedCut envelope) = .ok payload ∧
      payload.sourceCoverage = [sampleCut] := by
  obtain ⟨manifest, hmanifest, hnormalized, hread, hrebuild⟩ := build_reads sampleCodecs.nf
    sampleCodecs.gzip sampleCodecs.manifests cutInput_valid rfl (by decide)
  obtain ⟨build, hbuild⟩ := @projectReport_of sampleForm sampleGzip _ cutInput_valid
    cutInput_verified (by decide)
  obtain ⟨other, report, hother, hverified, hreport, rfl⟩ := projectReport_iff.mp hbuild
  obtain rfl := Except.ok.inj (hmanifest.symm.trans hother)
  have hproject := projectReport_iff.mpr ⟨manifest, report, hrebuild, hverified, hreport, rfl⟩
  refine ⟨manifest.envelope, manifest.payload, ?_, ?_⟩
  · rw [verifiedManifest, retainedCut, hread, ok_bind, hproject, ok_bind]
    rfl
  · exact List.perm_singleton.mp (normalizeManifest_facts hnormalized).2

noncomputable def cutManifest : RetainedManifest := retainedCut retainedCut_verified.choose

def cutSource : SourceEntity := ⟨9, .sourceManifest, sampleDigest, some 1, none, 0⟩

def alteredSource : SourceEntity := ⟨10, .sourceManifest, sampleDigest, some 1, none, 0⟩

def cutReference : ManifestItemReference where
  id := 4
  manifestId := 3
  itemKind := .sourceCoverage
  role := .primary
  ordinal := 0
  sourceId := 1
  sourceEntityId := 9
  sourceEntityHash := sampleDigest
  valueSliceSha256 := sha256 (canonicalBytes sampleForm sampleCut.json)
  liveSourceEntityId := some 9
  tombstoneId := none

def alteredReference : ManifestItemReference :=
  { cutReference with
    id := 5
    sourceEntityId := 10
    sourceEntityHash := 1
    liveSourceEntityId := some 10 }

noncomputable def sampleRepository : Repository :=
  .seed ⟨[cutSource, alteredSource], by decide⟩ ⟨[cutManifest], List.nodup_singleton _⟩
    ⟨[cutReference, alteredReference], by simp [cutReference, alteredReference]⟩

theorem sampleRepository_seeded : Seeded sampleRepository := by
  refine .seed (fun reference hreference => ?_) fun reference hreference => ?_
  · rcases List.mem_pair.mp hreference with rfl | rfl <;>
      exact ⟨cutManifest, List.mem_singleton.mpr rfl, rfl⟩
  · rcases List.mem_pair.mp hreference with rfl | rfl
    · exact ⟨rfl, cutSource, List.mem_cons_self, rfl⟩
    · exact ⟨rfl, alteredSource, List.mem_cons_of_mem _ List.mem_cons_self, rfl⟩

theorem sampleRepository_sound : Sound sampleCodecs sampleRepository :=
  sound_of_seeded sampleCodecs sampleRepository_seeded

theorem cutReference_attested :
    Attested sampleCodecs sampleRepository.manifests cutSource cutReference := by
  obtain ⟨payload, hverified, hcoverage⟩ := retainedCut_verified.choose_spec
  have hslice : manifestValueSlice payload cutReference = .ok (.coverage sampleCut) := by
    rw [manifestValueSlice]
    simp only [cutReference, hcoverage]
    rfl
  exact ⟨cutManifest, payload, rfl, hverified, verifyReference_iff.mpr
    ⟨rfl, rfl, rfl, .coverage sampleCut, hslice, rfl, rfl, rfl⟩⟩

theorem alteredReference_refused (manifests : Table RetainedManifest.id) :
    ¬Attested sampleCodecs manifests alteredSource alteredReference := by
  rintro ⟨_, _, _, _, hverified⟩
  have hhash : alteredReference.sourceEntityHash = alteredSource.sourceEntityHash :=
    (verifyReference_iff.mp hverified).2.1
  exact absurd hhash (by decide)

def sampleCleanups : List RetentionCommand :=
  [.cleanup ⟨10, rawRetention⟩ id, .cleanup ⟨9, rawRetention⟩ id]

/-- After them the report expires, and the altered source is cleaned up again. -/
def sampleCommands : List RetentionCommand :=
  sampleCleanups ++ [.expire (seconds (180 * 86400)), .cleanup ⟨10, seconds (180 * 86400)⟩ id]

theorem sampleIds_new : NewIds sampleRepository id :=
  ⟨fun _ _ _ _ h => h, fun _ ht => absurd ht (Table.not_mem_empty _)⟩

theorem altered_cleanup : attempt (retentionStep sampleCodecs) sampleRepository
    (.cleanup ⟨10, rawRetention⟩ id) = sampleRepository := by
  have hresult := cleanupSource_result sampleRepository_sound sampleIds_new ⟨10, rawRetention⟩
  cases hcleanup : cleanupSource sampleCodecs sampleRepository ⟨10, rawRetention⟩ id with
  | error e =>
    have hstep : retentionStep sampleCodecs sampleRepository (.cleanup ⟨10, rawRetention⟩ id) =
        .error e := by
      rw [retentionStep, hcleanup, error_bind]
    exact attempt_of_error hstep
  | ok result =>
    rw [hcleanup] at hresult
    cases hresult with
    | notEligible source mem id early =>
      rcases List.mem_pair.mp mem with rfl | rfl <;> exact absurd early (by decide)
    | deleted source mem id eligible attested _ _ _ =>
      rcases List.mem_pair.mp mem with rfl | rfl
      · exact absurd id (by decide)
      · exact absurd (attested alteredReference (List.mem_cons_of_mem _ List.mem_cons_self) rfl)
          (alteredReference_refused _)

theorem sampleCleanups_fresh :
    Meets (retentionStep sampleCodecs) Fresh sampleRepository sampleCleanups := by
  refine ⟨sampleIds_new, ?_, trivial⟩
  rw [altered_cleanup]
  exact sampleIds_new

theorem sampleCommands_fresh :
    Meets (retentionStep sampleCodecs) Fresh sampleRepository sampleCommands := by
  have hexpiry : Meets (retentionStep sampleCodecs) Fresh sampleRepository
      (sampleCleanups ++ [.expire (seconds (180 * 86400))]) :=
    meets_append.mpr ⟨sampleCleanups_fresh, trivial, trivial⟩
  have hkept := run_kept sampleRepository_sound _ hexpiry
  -- no reference is left after the expiry
  have hnone : ∀ reference, reference ∉ (run (retentionStep sampleCodecs) sampleRepository
      (sampleCleanups ++ [.expire (seconds (180 * 86400))])).references := by
    intro reference hreference
    obtain ⟨manifest, hmanifest, _⟩ := hkept.sound.references reference hreference
    obtain ⟨hmem, hretained⟩ := (hkept.manifests manifest).mp hmanifest
    obtain rfl := List.mem_singleton.mp hmem
    exact absurd (hretained (seconds (180 * 86400)) (by simp)) (lt_irrefl _)
  have hlast : Meets (retentionStep sampleCodecs) Fresh sampleRepository
      ((sampleCleanups ++ [.expire (seconds (180 * 86400))]) ++
        [.cleanup ⟨10, seconds (180 * 86400)⟩ id]) :=
    meets_append.mpr ⟨hexpiry, ⟨fun reference hreference => absurd hreference (hnone reference),
      fun _ _ reference hreference => absurd hreference (hnone reference)⟩, trivial⟩
  rw [List.append_assoc] at hlast
  exact hlast

theorem retained_until_expiry_sample :
    cutManifest ∈ (run (retentionStep sampleCodecs) sampleRepository sampleCleanups).manifests ∧
    cutManifest ∉ (run (retentionStep sampleCodecs) sampleRepository sampleCommands).manifests := by
  refine ⟨((retained_until_expiry sampleCodecs sampleRepository sampleRepository_sound _
    sampleCleanups_fresh).2.1 cutManifest).mpr ⟨List.mem_singleton.mpr rfl, ?_⟩, fun hmem => ?_⟩
  · intro observedAt hexpire
    simp [sampleCleanups] at hexpire
  · have hretained := ((retained_until_expiry sampleCodecs sampleRepository sampleRepository_sound _
      sampleCommands_fresh).2.1 cutManifest).mp hmem
    exact absurd (hretained.2 (seconds (180 * 86400)) (by simp [sampleCommands])) (lt_irrefl _)

/-- A source that its references attest is removed when it is due; the altered one only
    after the expiry of the report. -/
theorem source_remains_iff_sample :
    cutSource ∉ (run (retentionStep sampleCodecs) sampleRepository sampleCleanups).sources ∧
    alteredSource ∈ (run (retentionStep sampleCodecs) sampleRepository sampleCleanups).sources ∧
    alteredSource ∉ (run (retentionStep sampleCodecs) sampleRepository sampleCommands).sources := by
  refine ⟨fun hmem => ?_, ?_, fun hmem => ?_⟩
  · obtain ⟨_, hwithheld⟩ := (source_remains_iff sampleCodecs sampleRepository
      sampleRepository_sound _ sampleCleanups_fresh cutSource).mp hmem
    obtain ⟨reference, hreference, hlink, _, hnot⟩ :=
      hwithheld [.cleanup ⟨10, rawRetention⟩ id] (.cleanup ⟨9, rawRetention⟩ id) [] rfl
        ⟨rfl, by decide⟩
    rcases List.mem_pair.mp hreference with rfl | rfl
    · exact hnot cutReference_attested
    · exact absurd hlink (by decide)
  · refine (source_remains_iff sampleCodecs sampleRepository sampleRepository_sound _
      sampleCleanups_fresh alteredSource).mpr ⟨List.mem_cons_of_mem _ List.mem_cons_self, ?_⟩
    intro before command after hsplit hdue
    have hbefore : ∀ observedAt, .expire observedAt ∉ before := by
      intro observedAt hexpire
      have hmem : RetentionCommand.expire observedAt ∈ sampleCleanups := by
        rw [hsplit]
        exact List.mem_append_left _ hexpire
      simp [sampleCleanups] at hmem
    exact ⟨alteredReference, List.mem_cons_of_mem _ List.mem_cons_self, rfl,
      fun _ _ _ observedAt hexpire => absurd hexpire (hbefore observedAt),
      alteredReference_refused _⟩
  · obtain ⟨_, hwithheld⟩ := (source_remains_iff sampleCodecs sampleRepository
      sampleRepository_sound _ sampleCommands_fresh alteredSource).mp hmem
    obtain ⟨reference, hreference, _, hretained, _⟩ :=
      hwithheld (sampleCleanups ++ [.expire (seconds (180 * 86400))])
        (.cleanup ⟨10, seconds (180 * 86400)⟩ id) [] rfl ⟨rfl, by decide⟩
    have hlater := hretained cutManifest (List.mem_singleton.mpr rfl) (by
      rcases List.mem_pair.mp hreference with rfl | rfl <;> rfl) (seconds (180 * 86400)) (by simp)
    exact absurd hlater (lt_irrefl _)

end Sample

end PredictionMarketMonitor.RetentionRuns
