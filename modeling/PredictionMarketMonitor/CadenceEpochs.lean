import PredictionMarketMonitor.ActivationPlans
import PredictionMarketMonitor.CadenceAttempts
import PredictionMarketMonitor.CalendarText
import PredictionMarketMonitor.KeySorting
import PredictionMarketMonitor.SlotGrid

set_option autoImplicit false

/-!
# Cadence epochs

`scripts/release_cadence_slots.py`: the frozen window of an epoch and the slots
of its two schedules.
-/
namespace PredictionMarketMonitor.CadenceEpochs

open CanonicalJson CivilTime CollectionBase FallibleSteps KeySorting Sha256 SteppedWalk
open ActivationPlans (IsSha256)
open CadenceAttempts (ScheduleKind)
open SlotGrid (BeforeGridEnd OnGrid firstAfter gridEnd)

inductive CadenceError
  | anchorNotTimezoneAware | anchorNotScheduleAligned | expectedSourceSetInvalid
  | bindingSha256Invalid | scopeSha256Invalid | slotCardinalityInvalid
  | overflowError
deriving DecidableEq

structure CadenceEpoch where
  epochId : UUID
  anchorAt : Instant
  closesAt : Instant
  epochSha256 : Digest
  expectedSourceIds : UUID × UUID
  bindingSha256 : Text
  scopeSha256 : Text
  invalidatedAt : Option Instant := none
deriving DecidableEq

structure CadenceSlot where
  epochId : UUID
  scheduleKind : ScheduleKind
  slotKey : Text
  dueAt : Instant
deriving DecidableEq

def window : ℤ := hours (30 * 24)

def collectionInterval : ℤ := hours 3

def verifierInterval : ℤ := minutes 15

theorem collectionInterval_pos : 0 < collectionInterval := by decide

theorem verifierInterval_pos : 0 < verifierInterval := by decide

def expectedCount : ScheduleKind → ℕ
  | .collection => 240
  | .verifier => 2880

/-- `_utc_anchor`; a value whose UTC reading has no year overflows. -/
def utcAnchor (value : Datetime) : Except CadenceError Instant := do
  require value.Aware .anchorNotTimezoneAware
  require (datetimeMin ≤ value.instant ∧ value.instant ≤ datetimeMax) .overflowError
  let result := civil value.instant
  require (¬(result.minute ≠ 0 ∨ result.second ≠ 0 ∨ result.microsecond ≠ 0))
    .anchorNotScheduleAligned
  return value.instant

/-- `_sources`: two distinct sources in the order of their texts. -/
def expectedSources (values : List UUID) : Except CadenceError (UUID × UUID) :=
  match sortBy UUID.str values with
  | [first, second] =>
    if first = second then .error .expectedSourceSetInvalid else .ok (first, second)
  | _ => .error .expectedSourceSetInvalid

def cadenceEpochDigest (epochId : UUID) (anchorAt : Instant) (sources : UUID × UUID)
    (bindingSha256 scopeSha256 : Text) : Digest :=
  sha256 (encodeText (UUID.str epochId ++ '|' :: (Datetime.utc anchorAt).json ++
    '|' :: UUID.str sources.1 ++ '|' :: UUID.str sources.2 ++ '|' :: bindingSha256 ++
    '|' :: scopeSha256))

/-- `value.strftime("%Y-%m-%dT%H:%M:%SZ")` -/
def slotKey (value : Instant) : Text := formatSeconds (civil value) ++ ['Z']

/-- `value.replace(minute=minute)` -/
def replaceMinute (value : Instant) (minute : ℤ) : Instant :=
  value - minutes ((civil value).minute) + minutes minute

/-- The loop of `_collection_slots` that finds the first slot. -/
def collectionStart (anchorAt cursor : Instant) : Except CadenceError Instant :=
  if cursor < anchorAt ∨ (civil cursor).hour % 3 ≠ 0 then
    if cursor + hours 1 ≤ datetimeMax then
      collectionStart anchorAt (replaceMinute (cursor + hours 1) 17)
    else .error .overflowError
  else .ok cursor
termination_by (datetimeMax - cursor).toNat
decreasing_by
  have hforward : ∀ t : ℤ, t < t + 3600000000 - (t + 3600000000) / 1000000 % 86400 / 60 % 60 *
      60 * 1000000 + 1020000000 := by
    intro t
    omega
  have hnext : cursor < replaceMinute (cursor + hours 1) 17 := hforward cursor
  have hhour : (0 : ℤ) < hours 1 := by decide
  have hpast : cursor < datetimeMax := lt_of_lt_of_le (lt_add_of_pos_right _ hhour) ‹_›
  exact (Int.toNat_lt_toNat (sub_pos.mpr hpast)).mpr (sub_lt_sub_left hnext _)

/-- `_walk` -/
def walkSlots (epoch : CadenceEpoch) (kind : ScheduleKind) (cursor : Instant) (interval : ℤ)
    (hinterval : 0 < interval) : Except CadenceError (List CadenceSlot) := do
  let dues ← present (walk (· < epoch.closesAt) datetimeMax interval hinterval cursor)
    .overflowError
  return dues.map fun due => ⟨epoch.epochId, kind, slotKey due, due⟩

def collectionSlots (epoch : CadenceEpoch) : Except CadenceError (List CadenceSlot) := do
  let cursor ← collectionStart epoch.anchorAt (replaceMinute epoch.anchorAt 17)
  walkSlots epoch .collection cursor collectionInterval collectionInterval_pos

def verifierSlots (epoch : CadenceEpoch) : Except CadenceError (List CadenceSlot) :=
  walkSlots epoch .verifier epoch.anchorAt verifierInterval verifierInterval_pos

def slotOrder (slot : CadenceSlot) : ℤ ×ₗ Text :=
  toLex (slot.dueAt, slot.scheduleKind.value.toList)

def countOf (kind : ScheduleKind) (slots : List CadenceSlot) : ℕ :=
  slots.countP (fun slot => slot.scheduleKind = kind)

def materializeEpoch (epochId : UUID) (anchorAt : Datetime) (sourceIds : List UUID)
    (bindingSha256 scopeSha256 : Text) : Except CadenceError (CadenceEpoch × List CadenceSlot) := do
  let anchor ← utcAnchor anchorAt
  let sources ← expectedSources sourceIds
  require (IsSha256 bindingSha256) .bindingSha256Invalid
  require (IsSha256 scopeSha256) .scopeSha256Invalid
  require (anchor + window ≤ datetimeMax) .overflowError
  let epoch : CadenceEpoch := {
    epochId := epochId
    anchorAt := anchor
    closesAt := anchor + window
    epochSha256 := cadenceEpochDigest epochId anchor sources bindingSha256 scopeSha256
    expectedSourceIds := sources
    bindingSha256 := bindingSha256
    scopeSha256 := scopeSha256 }
  let collection ← collectionSlots epoch
  let verifier ← verifierSlots epoch
  let slots := sortBy slotOrder (collection ++ verifier)
  require (∀ kind ∈ [ScheduleKind.collection, .verifier], countOf kind slots = expectedCount kind)
    .slotCardinalityInvalid
  return (epoch, slots)

def OnHour (t : Instant) : Prop :=
  (civil t).minute = 0 ∧ (civil t).second = 0 ∧ (civil t).microsecond = 0

instance (t : Instant) : Decidable (OnHour t) := inferInstanceAs (Decidable (_ ∧ _))

def OnQuarterHour (t : Instant) : Prop :=
  (civil t).minute % 15 = 0 ∧ (civil t).second = 0 ∧ (civil t).microsecond = 0

/-- An aware full hour of UTC whose window the calendar can hold. -/
structure Materializable (anchorAt : Datetime) : Prop where
  aware : anchorAt.Aware
  onHour : OnHour anchorAt.instant
  min : datetimeMin ≤ anchorAt.instant
  held : anchorAt.instant + window ≤ gridEnd

section Grids

theorem onHour_iff {t : ℤ} : OnHour t ↔ t % 3600000000 = 0 := by
  have hminute : (civil t).minute = t / 1000000 % 86400 / 60 % 60 := rfl
  have hsecond : (civil t).second = t / 1000000 % 86400 % 60 := rfl
  have hmicro : (civil t).microsecond = t % 1000000 := rfl
  rw [OnHour, hminute, hsecond, hmicro]
  omega

theorem onQuarterHour_iff {t : ℤ} : OnQuarterHour t ↔ t % 900000000 = 0 := by
  have hminute : (civil t).minute = t / 1000000 % 86400 / 60 % 60 := rfl
  have hsecond : (civil t).second = t / 1000000 % 86400 % 60 := rfl
  have hmicro : (civil t).microsecond = t % 1000000 := rfl
  rw [OnQuarterHour, hminute, hsecond, hmicro]
  omega

/-- The first slot of the grid from `anchor` on lies within three hours of it. -/
theorem collectionStart_step {anchor cursor : ℤ} (hfrom : anchor ≤ cursor)
    (haligned : cursor % 3600000000 = 1020000000) (hfits : cursor + 3600000000 ≤ datetimeMax) :
    collectionStart anchor cursor =
      if (civil cursor).hour % 3 = 0 then .ok cursor
      else collectionStart anchor (cursor + 3600000000) := by
  have hnext : ∀ t : ℤ, t % 3600000000 = 1020000000 →
      t + 3600000000 - (t + 3600000000) / 1000000 % 86400 / 60 % 60 * 60 * 1000000 + 1020000000 =
        t + 3600000000 := by
    intro t ht
    omega
  have hreplaced : replaceMinute (cursor + hours 1) 17 = cursor + 3600000000 := hnext cursor haligned
  rw [collectionStart, hreplaced]
  by_cases hhour : (civil cursor).hour % 3 = 0
  · rw [if_neg (not_or.mpr ⟨not_lt.mpr hfrom, not_not.mpr hhour⟩), if_pos hhour]
  · rw [if_pos (.inr hhour), if_neg hhour]
    exact if_pos hfits

theorem collectionStart_of {anchor : ℤ} (hhour : anchor % 3600000000 = 0)
    (hfits : anchor + 10800000000 ≤ 253402300799999999) :
    collectionStart anchor (replaceMinute anchor 17) = .ok (firstAfter anchor) := by
  have hstart : replaceMinute anchor 17 = anchor + 1020000000 := by
    have hvalue : ∀ t : ℤ, t % 3600000000 = 0 →
        t - t / 1000000 % 86400 / 60 % 60 * 60 * 1000000 + 1020000000 = t + 1020000000 := by
      intro t ht
      omega
    exact hvalue anchor hhour
  have hresidue : ∀ k : ℤ, 0 ≤ k → k ≤ 2 →
      (civil (anchor + 1020000000 + 3600000000 * k)).hour % 3 = (anchor / 3600000000 + k) % 3 := by
    have hvalue : ∀ t k : ℤ, t % 3600000000 = 0 → 0 ≤ k → k ≤ 2 →
        (t + 1020000000 + 3600000000 * k) / 1000000 % 86400 / 3600 % 3 =
          (t / 3600000000 + k) % 3 := by
      intro t k ht hlow hhigh
      omega
    exact fun k hlow hhigh => hvalue anchor k hhour hlow hhigh
  have hmax : datetimeMax = 253402300799999999 := rfl
  have hstep : ∀ k : ℤ, 0 ≤ k → k ≤ 2 →
      collectionStart anchor (anchor + 1020000000 + 3600000000 * k) =
        if (anchor / 3600000000 + k) % 3 = 0 then .ok (anchor + 1020000000 + 3600000000 * k)
        else collectionStart anchor (anchor + 1020000000 + 3600000000 * (k + 1)) := by
    intro k hlow hhigh
    have hnext : anchor + 1020000000 + 3600000000 * (k + 1) =
        anchor + 1020000000 + 3600000000 * k + 3600000000 := by ring
    rw [hnext, ← hresidue k hlow hhigh]
    exact collectionStart_step (by omega) (by omega) (by rw [hmax]; omega)
  have hzero : anchor + 1020000000 = anchor + 1020000000 + 3600000000 * 0 := by ring
  have hthree : anchor / 3600000000 % 3 = 0 ∨ anchor / 3600000000 % 3 = 2 ∨
      anchor / 3600000000 % 3 = 1 := by omega
  rw [hstart, SlotGrid.firstAfter_eq, hzero]
  rcases hthree with h | h | h
  · have hfirst : anchor + 1020000000 + 3600000000 * 0 =
        anchor - (anchor - 1020000000) % 10800000000 + 10800000000 := by omega
    rw [hstep 0 (by omega) (by omega), if_pos (by omega), hfirst]
  · have hfirst : anchor + 1020000000 + 3600000000 * (0 + 1) =
        anchor - (anchor - 1020000000) % 10800000000 + 10800000000 := by omega
    rw [hstep 0 (by omega) (by omega), if_neg (by omega), hstep (0 + 1) (by omega) (by omega),
      if_pos (by omega), hfirst]
  · have hfirst : anchor + 1020000000 + 3600000000 * (0 + 1 + 1) =
        anchor - (anchor - 1020000000) % 10800000000 + 10800000000 := by omega
    rw [hstep 0 (by omega) (by omega), if_neg (by omega), hstep (0 + 1) (by omega) (by omega),
      if_neg (by omega), hstep (0 + 1 + 1) (by omega) (by omega), if_pos (by omega), hfirst]

end Grids

section Slots
variable {anchor : ℤ}

theorem window_eq : window = 2592000000000 := rfl

theorem mem_verifier {t : ℤ} (hanchor : anchor % 3600000000 = 0) :
    t ∈ progression anchor verifierInterval 2880 ↔
      OnQuarterHour t ∧ anchor ≤ t ∧ t < anchor + window := by
  have hinterval : verifierInterval = 900000000 := rfl
  rw [mem_progression, onQuarterHour_iff, window_eq, hinterval]
  constructor
  · rintro ⟨i, hi, rfl⟩
    exact ⟨by omega, by omega, by omega⟩
  · rintro ⟨hquarter, hfrom, hto⟩
    exact ⟨((t - anchor) / 900000000).toNat, by omega, by omega⟩

theorem mem_collection {t : ℤ} (hanchor : anchor % 3600000000 = 0) :
    t ∈ progression (firstAfter anchor) collectionInterval 240 ↔
      OnGrid t ∧ anchor ≤ t ∧ t < anchor + window := by
  have hinterval : collectionInterval = 10800000000 := rfl
  rw [mem_progression, SlotGrid.onGrid_iff, SlotGrid.firstAfter_eq, window_eq, hinterval]
  constructor
  · rintro ⟨i, hi, rfl⟩
    exact ⟨by omega, by omega, by omega⟩
  · rintro ⟨hgrid, hfrom, hto⟩
    refine ⟨((t - (anchor - (anchor - 1020000000) % 10800000000 + 10800000000)) /
      10800000000).toNat, by omega, by omega⟩

def slotAt (epochId : UUID) (kind : ScheduleKind) (due : Instant) : CadenceSlot :=
  ⟨epochId, kind, slotKey due, due⟩

theorem walkSlots_of {epoch : CadenceEpoch} {kind : ScheduleKind} {cursor interval : ℤ}
    {hinterval : 0 < interval} {count : ℕ}
    (hbefore : ∀ i < count, cursor + interval * (i : ℕ) < epoch.closesAt)
    (hend : epoch.closesAt ≤ cursor + interval * count)
    (hfits : cursor + interval * count ≤ datetimeMax) :
    walkSlots epoch kind cursor interval hinterval =
      .ok ((progression cursor interval count).map (slotAt epoch.epochId kind)) := by
  have hwalk : walk (· < epoch.closesAt) datetimeMax interval hinterval cursor =
      some (progression cursor interval count) :=
    walk_progression hbefore (not_lt.mpr hend) (.inr hfits)
  rw [walkSlots, hwalk]
  rfl

theorem verifierSlots_of {epoch : CadenceEpoch} (hanchor : epoch.anchorAt = anchor)
    (hcloses : epoch.closesAt = anchor + window) (hheld : anchor + window ≤ gridEnd) :
    verifierSlots epoch = .ok ((progression anchor verifierInterval 2880).map
      (slotAt epoch.epochId .verifier)) := by
  have hinterval : verifierInterval = 900000000 := rfl
  have hmax : gridEnd ≤ datetimeMax := by decide
  have hlast : anchor + verifierInterval * (2880 : ℕ) = anchor + window := by
    rw [hinterval, window_eq]
    omega
  rw [verifierSlots, hanchor]
  refine walkSlots_of (fun i hi => ?_) ?_ ?_
  · rw [hcloses, window_eq, hinterval]
    omega
  · rw [hcloses, hlast]
  · rw [hlast]
    exact hheld.trans hmax

theorem collectionSlots_of {epoch : CadenceEpoch} (hanchor : epoch.anchorAt = anchor)
    (hcloses : epoch.closesAt = anchor + window) (hhour : anchor % 3600000000 = 0)
    (hheld : anchor + window ≤ gridEnd) :
    collectionSlots epoch = .ok ((progression (firstAfter anchor) collectionInterval 240).map
      (slotAt epoch.epochId .collection)) := by
  have hinterval : collectionInterval = 10800000000 := rfl
  have hmax : datetimeMax = 253402300799999999 := rfl
  have hheld : anchor + 2592000000000 ≤ 253402291020000000 := hheld
  have hstart := collectionStart_of hhour (by omega)
  rw [collectionSlots, hanchor, hstart, ok_bind]
  refine walkSlots_of (fun i hi => ?_) ?_ ?_
  · rw [hcloses, window_eq, hinterval, SlotGrid.firstAfter_eq]
    have hbound : anchor - (anchor - 1020000000) % 10800000000 + 10800000000 +
        10800000000 * (i : ℤ) < anchor + 2592000000000 := by omega
    exact hbound
  · rw [hcloses, window_eq, hinterval, SlotGrid.firstAfter_eq]
    have hbound : anchor + 2592000000000 ≤ anchor - (anchor - 1020000000) % 10800000000 +
        10800000000 + 10800000000 * ((240 : ℕ) : ℤ) := by omega
    exact hbound
  · rw [hinterval, hmax, SlotGrid.firstAfter_eq]
    have hbound : anchor - (anchor - 1020000000) % 10800000000 + 10800000000 +
        10800000000 * ((240 : ℕ) : ℤ) ≤ 253402300799999999 := by omega
    exact hbound

theorem slotKey_injective {t u : ℤ} (ht : FromYearZero t) (hu : FromYearZero u)
    (htwhole : t % 1000000 = 0) (huwhole : u % 1000000 = 0) (h : slotKey t = slotKey u) : t = u := by
  have hfields : formatSeconds (civil t) = formatSeconds (civil u) := List.append_cancel_right h
  have htmicro : (civil t).microsecond = 0 := htwhole
  have humicro : (civil u).microsecond = 0 := huwhole
  refine formatMicroseconds_injective ht hu ?_
  rw [formatMicroseconds, formatMicroseconds, hfields, htmicro, humicro]

theorem expectedSources_of {a b : UUID} (h : a ≠ b) : ∃ sources, expectedSources [a, b] = .ok sources := by
  have hperm := sortBy_perm UUID.str [a, b]
  rcases List.perm_pair.mp hperm with hsame | hswapped
  · exact ⟨(a, b), by rw [expectedSources, hsame]; exact if_neg h⟩
  · exact ⟨(b, a), by rw [expectedSources, hswapped]; exact if_neg (Ne.symm h)⟩

theorem utcAnchor_of {anchorAt : Datetime} (h : Materializable anchorAt) :
    utcAnchor anchorAt = .ok anchorAt.instant := by
  have hmax : anchorAt.instant ≤ datetimeMax := by
    have hwindow : (0 : ℤ) ≤ window := by decide
    have hend : gridEnd ≤ datetimeMax := by decide
    exact (le_add_of_nonneg_right hwindow).trans (h.held.trans hend)
  have haligned : ¬((civil anchorAt.instant).minute ≠ 0 ∨ (civil anchorAt.instant).second ≠ 0 ∨
      (civil anchorAt.instant).microsecond ≠ 0) := by
    rintro (hminute | hsecond | hmicro)
    · exact hminute h.onHour.1
    · exact hsecond h.onHour.2.1
    · exact hmicro h.onHour.2.2
  rw [utcAnchor, require_of h.aware, ok_bind, require_of ⟨h.min, hmax⟩, ok_bind]
  dsimp only
  rw [require_of haligned, ok_bind]
  rfl

end Slots

section Results

def duesOf (kind : ScheduleKind) (slots : List CadenceSlot) : List Instant :=
  (slots.filter (fun slot => slot.scheduleKind = kind)).map CadenceSlot.dueAt

/-- The slots of the window from `anchor` are those of both grids, each once. -/
structure ExactEpoch (anchor : Instant) (epoch : CadenceEpoch) (slots : List CadenceSlot) :
    Prop where
  anchored : epoch.anchorAt = anchor ∧ epoch.closesAt = anchor + window
  ordered : slots.Pairwise (fun slot next => slot.dueAt ≤ next.dueAt)
  distinct : (slots.map fun slot => (slot.scheduleKind, slot.slotKey)).Nodup
  keyed : ∀ slot ∈ slots, slot.epochId = epoch.epochId ∧ slot.slotKey = slotKey slot.dueAt
  collection : ∀ t, t ∈ duesOf .collection slots ↔ OnGrid t ∧ anchor ≤ t ∧ t < anchor + window
  verifier : ∀ t, t ∈ duesOf .verifier slots ↔ OnQuarterHour t ∧ anchor ≤ t ∧ t < anchor + window
  -- the scheduler activated at the anchor emits the same instants until the window closes
  scheduled : ∀ scopeVersion, ∃ plan, SlotGrid.planSlotMaterialization ⟨scopeVersion, none⟩
    (.utc anchor) (.utc epoch.closesAt) = .ok plan ∧ SlotGrid.dues [plan] = duesOf .collection slots
  -- and so does one that has been active before, inside of the window
  active : ∀ scopeVersion activation now, BeforeGridEnd activation → BeforeGridEnd now →
    activation.instant ≤ anchor → epoch.closesAt ≤ now.instant →
      ∃ plan, SlotGrid.planSlotMaterialization ⟨scopeVersion, none⟩ activation now = .ok plan ∧
        (SlotGrid.dues [plan]).filter (fun t => anchor ≤ t ∧ t < anchor + window) =
          duesOf .collection slots

theorem slotOrder_dueAt {slot next : CadenceSlot} (h : slotOrder slot ≤ slotOrder next) :
    slot.dueAt ≤ next.dueAt := by
  rcases Prod.Lex.toLex_le_toLex.mp h with hlt | ⟨heq, _⟩
  · exact le_of_lt hlt
  · exact le_of_eq heq

theorem mem_duesOf {kind : ScheduleKind} {slots : List CadenceSlot} {t : Instant} :
    t ∈ duesOf kind slots ↔ ∃ slot ∈ slots, slot.scheduleKind = kind ∧ slot.dueAt = t := by
  simp only [duesOf, List.mem_map, List.mem_filter, decide_eq_true_eq, and_assoc]

variable {epochId : UUID} {collection verifier : List Instant}

theorem mem_slots {slot : CadenceSlot} :
    slot ∈ sortBy slotOrder (collection.map (slotAt epochId .collection) ++
        verifier.map (slotAt epochId .verifier)) ↔
      (∃ t ∈ collection, slotAt epochId .collection t = slot) ∨
        ∃ t ∈ verifier, slotAt epochId .verifier t = slot := by
  rw [mem_sortBy, List.mem_append, List.mem_map, List.mem_map]

theorem mem_duesOf_slots {t : Instant} :
    (t ∈ duesOf .collection (sortBy slotOrder (collection.map (slotAt epochId .collection) ++
        verifier.map (slotAt epochId .verifier))) ↔ t ∈ collection) ∧
      (t ∈ duesOf .verifier (sortBy slotOrder (collection.map (slotAt epochId .collection) ++
        verifier.map (slotAt epochId .verifier))) ↔ t ∈ verifier) := by
  simp only [mem_duesOf, mem_slots]
  constructor
  · constructor
    · rintro ⟨slot, ⟨u, hu, rfl⟩ | ⟨u, hu, rfl⟩, hkind, rfl⟩
      · exact hu
      · cases hkind
    · exact fun ht => ⟨slotAt epochId .collection t, .inl ⟨t, ht, rfl⟩, rfl, rfl⟩
  · constructor
    · rintro ⟨slot, ⟨u, hu, rfl⟩ | ⟨u, hu, rfl⟩, hkind, rfl⟩
      · cases hkind
      · exact hu
    · exact fun ht => ⟨slotAt epochId .verifier t, .inr ⟨t, ht, rfl⟩, rfl, rfl⟩

theorem countOf_slots :
    countOf .collection (sortBy slotOrder (collection.map (slotAt epochId .collection) ++
        verifier.map (slotAt epochId .verifier))) = collection.length ∧
      countOf .verifier (sortBy slotOrder (collection.map (slotAt epochId .collection) ++
        verifier.map (slotAt epochId .verifier))) = verifier.length := by
  have hperm := sortBy_perm slotOrder (collection.map (slotAt epochId .collection) ++
    verifier.map (slotAt epochId .verifier))
  constructor
  · rw [countOf, hperm.countP_eq, List.countP_append, List.countP_map, List.countP_map]
    simp [Function.comp_def, slotAt]
  · rw [countOf, hperm.countP_eq, List.countP_append, List.countP_map, List.countP_map]
    simp [Function.comp_def, slotAt]

theorem keys_nodup {whole : Instant → Prop} (hcollection : collection.Nodup)
    (hverifier : verifier.Nodup) (hwhole : ∀ t, t ∈ collection ∨ t ∈ verifier → whole t)
    (hkey : ∀ t u, whole t → whole u → slotKey t = slotKey u → t = u) :
    ((sortBy slotOrder (collection.map (slotAt epochId .collection) ++
        verifier.map (slotAt epochId .verifier))).map
          fun slot => (slot.scheduleKind, slot.slotKey)).Nodup := by
  have hperm := (sortBy_perm slotOrder (collection.map (slotAt epochId .collection) ++
    verifier.map (slotAt epochId .verifier))).map fun slot => (slot.scheduleKind, slot.slotKey)
  rw [hperm.nodup_iff, List.map_append, List.map_map, List.map_map]
  refine List.nodup_append.mpr ⟨?_, ?_, ?_⟩
  · refine List.Nodup.map_on (fun t ht u hu h => ?_) hcollection
    exact hkey t u (hwhole t (.inl ht)) (hwhole u (.inl hu)) (congrArg Prod.snd h)
  · refine List.Nodup.map_on (fun t ht u hu h => ?_) hverifier
    exact hkey t u (hwhole t (.inr ht)) (hwhole u (.inr hu)) (congrArg Prod.snd h)
  · intro x hx y hy heq
    obtain ⟨t, _, rfl⟩ := List.mem_map.mp hx
    obtain ⟨u, _, rfl⟩ := List.mem_map.mp hy
    exact absurd (congrArg Prod.fst heq) (by simp [slotAt])

theorem duesOf_collection (hcollection : collection.Pairwise (· < ·)) :
    duesOf .collection (sortBy slotOrder (collection.map (slotAt epochId .collection) ++
      verifier.map (slotAt epochId .verifier))) = collection := by
  have hsorted := (sortBy_pairwise slotOrder (collection.map (slotAt epochId .collection) ++
    verifier.map (slotAt epochId .verifier))).filter fun slot => slot.scheduleKind = .collection
  have hperm := ((sortBy_perm slotOrder (collection.map (slotAt epochId .collection) ++
    verifier.map (slotAt epochId .verifier))).filter
      fun slot => slot.scheduleKind = .collection).map CadenceSlot.dueAt
  have hsame : (((collection.map (slotAt epochId .collection) ++
      verifier.map (slotAt epochId .verifier))).filter
        fun slot => slot.scheduleKind = .collection).map CadenceSlot.dueAt = collection := by
    rw [List.filter_append, List.filter_map, List.filter_map]
    simp [Function.comp_def, slotAt]
  rw [hsame] at hperm
  have hordered := List.pairwise_map.mpr (hsorted.imp slotOrder_dueAt)
  exact hperm.eq_of_pairwise (fun _ _ _ _ => le_antisymm) hordered (hcollection.imp le_of_lt)

theorem fromYearZero_of {t : ℤ} (h : datetimeMin ≤ t) : FromYearZero t := by
  have hyear : (-719468 * 86400000000 : ℤ) ≤ datetimeMin := by decide
  exact hyear.trans h

theorem closes_beforeGridEnd {anchorAt : Datetime} (h : Materializable anchorAt) :
    BeforeGridEnd (.utc anchorAt.instant) ∧ BeforeGridEnd (.utc (anchorAt.instant + window)) := by
  have hhour := onHour_iff.mp h.onHour
  have hheld : anchorAt.instant + 2592000000000 ≤ 253402291020000000 := h.held
  have hclosed : ∀ t : ℤ, t % 3600000000 = 0 → t + 2592000000000 ≤ 253402291020000000 →
      t < 253402291020000000 ∧ t + 2592000000000 < 253402291020000000 := by
    intro t ht hle
    omega
  have hwindow : (0 : ℤ) ≤ window := by decide
  have hbefore := hclosed _ hhour hheld
  exact ⟨⟨rfl, h.min, hbefore.1⟩,
    ⟨rfl, h.min.trans (le_add_of_nonneg_right hwindow), hbefore.2⟩⟩

theorem scheduled_window {anchorAt activation now : Datetime} (h : Materializable anchorAt)
    (scopeVersion : Text) (hactivation : BeforeGridEnd activation) (hnow : BeforeGridEnd now)
    (hbefore : activation.instant ≤ anchorAt.instant)
    (hafter : anchorAt.instant + window ≤ now.instant) :
    ∃ plan, SlotGrid.planSlotMaterialization ⟨scopeVersion, none⟩ activation now = .ok plan ∧
      (∀ t, t ∈ SlotGrid.dues [plan] ↔
        OnGrid t ∧ activation.instant < t ∧ t ≤ now.instant) ∧
      (SlotGrid.dues [plan]).Pairwise (· < ·) ∧
      (SlotGrid.dues [plan]).filter
          (fun t => anchorAt.instant ≤ t ∧ t < anchorAt.instant + window) =
        progression (firstAfter anchorAt.instant) collectionInterval 240 := by
  have hhour := onHour_iff.mp h.onHour
  obtain ⟨plan, hplan, hsorted, hmem⟩ := SlotGrid.plan_dues scopeVersion hactivation hnow
  refine ⟨plan, hplan, hmem, hsorted, ?_⟩
  refine eq_of_mem_iff_of_pairwise (hsorted.filter _)
    (progression_pairwise collectionInterval_pos _) fun t => ?_
  rw [List.mem_filter, hmem, mem_collection hhour, decide_eq_true_eq]
  constructor
  · rintro ⟨⟨hgrid, _, _⟩, hin⟩
    exact ⟨hgrid, hin⟩
  · rintro ⟨hgrid, hfrom, hto⟩
    refine ⟨⟨hgrid, ?_, (le_of_lt hto).trans hafter⟩, hfrom, hto⟩
    -- the anchor is a full hour, so no slot falls on it
    refine lt_of_le_of_ne (hbefore.trans hfrom) fun heq => ?_
    have hsame : t = anchorAt.instant := le_antisymm (heq ▸ hbefore) hfrom
    have hminute : (civil t).minute = 17 := hgrid.2.1
    rw [hsame, h.onHour.1] at hminute
    exact absurd hminute (by decide)

/-- Each window that the calendar can hold is materialized, and exactly. -/
theorem epoch_exact (epochId : UUID) {anchorAt : Datetime} {a b : UUID}
    {bindingSha256 scopeSha256 : Text} (hanchor : Materializable anchorAt) (hdistinct : a ≠ b)
    (hbinding : IsSha256 bindingSha256) (hscope : IsSha256 scopeSha256) :
    ∃ epoch slots, materializeEpoch epochId anchorAt [a, b] bindingSha256 scopeSha256 =
        .ok (epoch, slots) ∧ ExactEpoch anchorAt.instant epoch slots := by
  obtain ⟨sources, hsources⟩ := expectedSources_of hdistinct
  have hhour := onHour_iff.mp hanchor.onHour
  have hclosed := closes_beforeGridEnd hanchor
  obtain ⟨epoch, hepoch⟩ : ∃ epoch : CadenceEpoch, epoch = {
      epochId := epochId
      anchorAt := anchorAt.instant
      closesAt := anchorAt.instant + window
      epochSha256 :=
        cadenceEpochDigest epochId anchorAt.instant sources bindingSha256 scopeSha256
      expectedSourceIds := sources
      bindingSha256 := bindingSha256
      scopeSha256 := scopeSha256 } := ⟨_, rfl⟩
  have hanchored : epoch.anchorAt = anchorAt.instant := by rw [hepoch]
  have hcloses : epoch.closesAt = anchorAt.instant + window := by rw [hepoch]
  have hcollection := collectionSlots_of hanchored hcloses hhour hanchor.held
  have hverifier := verifierSlots_of hanchored hcloses hanchor.held
  have hcollectionSorted := @progression_pairwise (firstAfter anchorAt.instant) _
    collectionInterval_pos 240
  have hverifierSorted := @progression_pairwise anchorAt.instant _ verifierInterval_pos 2880
  have hcounts := @countOf_slots epoch.epochId
    (progression (firstAfter anchorAt.instant) collectionInterval 240)
    (progression anchorAt.instant verifierInterval 2880)
  have hmem := fun t => @mem_duesOf_slots epoch.epochId
    (progression (firstAfter anchorAt.instant) collectionInterval 240)
    (progression anchorAt.instant verifierInterval 2880) t
  have hdues := @duesOf_collection epoch.epochId _
    (progression anchorAt.instant verifierInterval 2880) hcollectionSorted
  have hfits : anchorAt.instant + window ≤ datetimeMax := hanchor.held.trans (by decide)
  refine ⟨epoch, sortBy slotOrder
    ((progression (firstAfter anchorAt.instant) collectionInterval 240).map
        (slotAt epoch.epochId .collection) ++
      (progression anchorAt.instant verifierInterval 2880).map (slotAt epoch.epochId .verifier)),
    ?_, ⟨⟨hanchored, hcloses⟩, ?_, ?_, ?_, ?_, ?_, ?_, ?_⟩⟩
  · have hcardinality : ∀ kind ∈ [ScheduleKind.collection, .verifier], countOf kind
        (sortBy slotOrder ((progression (firstAfter anchorAt.instant) collectionInterval 240).map
            (slotAt epoch.epochId .collection) ++
          (progression anchorAt.instant verifierInterval 2880).map
            (slotAt epoch.epochId .verifier))) = expectedCount kind := by
      intro kind _
      cases kind with
      | collection => exact hcounts.1.trans (progression_length _ _ 240)
      | verifier => exact hcounts.2.trans (progression_length _ _ 2880)
    rw [materializeEpoch, utcAnchor_of hanchor, ok_bind, hsources, ok_bind, require_of hbinding,
      ok_bind, require_of hscope, ok_bind, require_of hfits, ok_bind]
    dsimp only
    rw [← hepoch, hcollection, ok_bind, hverifier, ok_bind, require_of hcardinality, ok_bind]
    rfl
  · exact (sortBy_pairwise slotOrder _).imp slotOrder_dueAt
  · refine @keys_nodup _ _ _ (fun t => datetimeMin ≤ t ∧ t % 1000000 = 0)
      (hcollectionSorted.imp ne_of_lt) (hverifierSorted.imp ne_of_lt) ?_ ?_
    · rintro t (ht | ht)
      · obtain ⟨hgrid, hfrom, _⟩ := (mem_collection hhour).mp ht
        exact ⟨hanchor.min.trans hfrom, hgrid.2.2.2⟩
      · obtain ⟨hquarter, hfrom, _⟩ := (mem_verifier hhour).mp ht
        exact ⟨hanchor.min.trans hfrom, hquarter.2.2⟩
    · exact fun t u ht hu heq =>
        slotKey_injective (fromYearZero_of ht.1) (fromYearZero_of hu.1) ht.2 hu.2 heq
  · intro slot hslot
    rcases mem_slots.mp hslot with ⟨t, _, rfl⟩ | ⟨t, _, rfl⟩
    · exact ⟨rfl, rfl⟩
    · exact ⟨rfl, rfl⟩
  · exact fun t => (hmem t).1.trans (mem_collection hhour)
  · exact fun t => (hmem t).2.trans (mem_verifier hhour)
  · intro scopeVersion
    obtain ⟨plan, hplan, hplanned, _, hwindow⟩ := scheduled_window hanchor scopeVersion
      hclosed.1 hclosed.2 le_rfl le_rfl
    refine ⟨plan, hcloses ▸ hplan, ?_⟩
    rw [hdues, ← hwindow, eq_comm, List.filter_eq_self]
    intro t ht
    obtain ⟨hgrid, hfrom, hto⟩ := (hplanned t).mp ht
    -- the closing time is a full hour as well
    have hoff : ∀ t a : ℤ, t % 10800000000 = 1020000000 → a % 3600000000 = 0 →
        t ≠ a + 2592000000000 := by
      intro t a ht ha
      omega
    have hwithin := hoff t _ (SlotGrid.onGrid_iff.mp hgrid) hhour
    exact decide_eq_true ⟨le_of_lt hfrom, lt_of_le_of_ne hto hwithin⟩
  · intro scopeVersion activation now hactivation hnow hbefore hafter
    obtain ⟨plan, hplan, _, _, hwindow⟩ := scheduled_window hanchor scopeVersion hactivation hnow
      hbefore (hcloses ▸ hafter)
    exact ⟨plan, hplan, hwindow.trans hdues.symm⟩

theorem epoch_exact_august : ∃ epoch slots,
    materializeEpoch 7 (.utc (seconds 1785542400)) [1, 2] (List.replicate 64 '0')
        (List.replicate 64 'f') = .ok (epoch, slots) ∧
      ExactEpoch (seconds 1785542400) epoch slots :=
  epoch_exact 7 ⟨rfl, by decide, by decide, by decide⟩ (by decide) (by decide) (by decide)

/-- Ten o'clock at an offset of five and a half hours is not a full hour of UTC, a window
    that opens on 9999-12-15 does not close before the calendar ends, and midnight of the
    first day, nine hours east, has no reading in UTC. -/
theorem epoch_refused :
    OnHour (seconds 1785558600 + seconds 19800) ∧
      materializeEpoch 7 ⟨seconds 1785558600, some 19800⟩ [1, 2] (List.replicate 64 '0')
        (List.replicate 64 'f') = .error .anchorNotScheduleAligned ∧
      OnHour (seconds 253400832000) ∧
      materializeEpoch 7 (.utc (seconds 253400832000)) [1, 2] (List.replicate 64 '0')
        (List.replicate 64 'f') = .error .overflowError ∧
      materializeEpoch 7 ⟨datetimeMin - hours 9, some 32400⟩ [1, 2] (List.replicate 64 '0')
        (List.replicate 64 'f') = .error .overflowError := by
  refine ⟨by decide, by decide +kernel, by decide, by decide +kernel, by decide +kernel⟩

end Results

end PredictionMarketMonitor.CadenceEpochs
