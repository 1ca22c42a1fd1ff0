import ZenithRelay.Scheduler.ActivityProperties
import ZenithRelay.Scheduler.Selection.ResponseOwnershipProperties

/-!
# Activity and reservations

The two activity maps count the reservation table: by candidate and lane, and by
physical member. A counting law for one map and one owner of each reservation,
used for both maps, and from it the invariant of every run.
-/

set_option autoImplicit false

namespace ZenithRelay.Scheduler

open Rotation

namespace SchedulerActivity

theorem SameLoad.inFlightMap {before after : SchedulerActivity} (same : before.SameLoad after)
    (lane : InFlightLane) : after.inFlightMap lane = before.inFlightMap lane := by
  cases lane with
  | text => exact same.text
  | image => exact same.image

/-! ## An activity map as a mirror of the reservation table -/

/-- The activity counts the reservations by the owner that `ownerOf` reads off them. -/
structure Mirrors (activity : SchedulerActivity) (ownerOf : Reservation → String)
    (active : BTreeMap ReservationId Reservation) : Prop where
  inFlight : ∀ owner lane, activity.inFlightCount owner lane =
    BTreeMap.countValues active fun reservation =>
      ownerOf reservation = owner ∧ reservation.lane = lane
  models : ∀ owner lane modelKey, activity.modelCount owner lane modelKey =
    BTreeMap.countValues active fun reservation =>
      ownerOf reservation = owner ∧ reservation.lane = lane ∧
        modelIdKey reservation.model = modelKey
  load : ∀ owner, activity.load owner =
    BTreeMap.countValues active fun reservation => ownerOf reservation = owner

variable {activity : SchedulerActivity} {ownerOf : Reservation → String}
  {active : BTreeMap ReservationId Reservation}

theorem Mirrors.empty (ownerOf : Reservation → String) :
    SchedulerActivity.default.Mirrors ownerOf ∅ where
  inFlight owner lane := by cases lane <;> simp [inFlightCount, inFlightMap, default]
  models owner lane modelKey := by simp [modelCount, default]
  load owner := by simp [SchedulerActivity.load, default]

theorem Mirrors.sameLoad (mirrors : activity.Mirrors ownerOf active) {after : SchedulerActivity}
    (same : activity.SameLoad after) : after.Mirrors ownerOf active where
  inFlight owner lane := by
    rw [← mirrors.inFlight, inFlightCount, inFlightCount, same.inFlightMap]
  models owner lane modelKey := by
    rw [← mirrors.models, modelCount, modelCount, same.models]
  load owner := by
    rw [← mirrors.load, SchedulerActivity.load, SchedulerActivity.load, same.models]

theorem Mirrors.reserve (mirrors : activity.Mirrors ownerOf active) {reservationId : ReservationId}
    {reservation : Reservation} (fresh : active[reservationId]? = none)
    (room : BTreeMap.countValues active (fun other =>
      ownerOf other = ownerOf reservation ∧ other.lane = reservation.lane) < u32Max) :
    (activity.reserve (ownerOf reservation) reservation.model reservation.lane).Mirrors ownerOf
      (active.insert reservationId reservation) := by
  have modelRoom : activity.modelCount (ownerOf reservation) reservation.lane
      (modelIdKey reservation.model) < u32Max := by
    rw [mirrors.models]
    refine Nat.lt_of_le_of_lt (BTreeMap.countValues_le_of_imp active ?_) room
    intro other counted
    simp only [decide_eq_true_eq] at counted ⊢
    exact ⟨counted.1, counted.2.1⟩
  constructor
  · intro owner lane
    rw [reserve_inFlight, BTreeMap.countValues_insert_fresh _ fresh, mirrors.inFlight,
      mirrors.inFlight, saturatingAdd_eq room]
    by_cases same : owner = ownerOf reservation ∧ lane = reservation.lane
    · simp [same]
    · have other : ¬(ownerOf reservation = owner ∧ reservation.lane = lane) :=
        fun equal => same ⟨equal.1.symm, equal.2.symm⟩
      simp [same, other]
  · intro owner lane modelKey
    rw [reserve_modelCount, BTreeMap.countValues_insert_fresh _ fresh]
    by_cases same : owner = ownerOf reservation ∧ lane = reservation.lane ∧
        modelKey = modelIdKey reservation.model
    · obtain ⟨rfl, rfl, rfl⟩ := same
      rw [if_pos ⟨rfl, rfl, rfl⟩, saturatingAdd_eq modelRoom, mirrors.models]
      simp
    · have other : ¬(ownerOf reservation = owner ∧ reservation.lane = lane ∧
          modelIdKey reservation.model = modelKey) :=
        fun equal => same ⟨equal.1.symm, equal.2.1.symm, equal.2.2.symm⟩
      rw [if_neg same, mirrors.models]
      simp [other]
  · intro owner
    rw [reserve_load modelRoom, BTreeMap.countValues_insert_fresh _ fresh, mirrors.load]
    by_cases same : owner = ownerOf reservation
    · simp [same]
    · simp [same, Ne.symm same]

theorem Mirrors.release (mirrors : activity.Mirrors ownerOf active) {reservationId : ReservationId}
    {reservation : Reservation} (found : active[reservationId]? = some reservation) :
    (activity.release (ownerOf reservation) (some reservation.model) reservation.lane).1.Mirrors
      ownerOf (active.erase reservationId) := by
  have counted : 0 < activity.inFlightCount (ownerOf reservation) reservation.lane := by
    rw [mirrors.inFlight, BTreeMap.countValues_pos_iff]
    exact ⟨reservationId, reservation, found, by simp⟩
  have modelCounted : 0 < activity.modelCount (ownerOf reservation) reservation.lane
      (modelIdKey reservation.model) := by
    rw [mirrors.models, BTreeMap.countValues_pos_iff]
    exact ⟨reservationId, reservation, found, by simp⟩
  constructor
  · intro owner lane
    have split := BTreeMap.countValues_erase
      (fun other => decide (ownerOf other = owner ∧ other.lane = lane)) found
    rw [release_inFlight]
    by_cases same : owner = ownerOf reservation ∧ lane = reservation.lane
    · obtain ⟨rfl, rfl⟩ := same
      rw [if_pos ⟨rfl, rfl⟩, mirrors.inFlight]
      simp only [and_self, decide_true, ↓reduceIte] at split
      omega
    · have other : ¬(ownerOf reservation = owner ∧ reservation.lane = lane) :=
        fun equal => same ⟨equal.1.symm, equal.2.symm⟩
      rw [if_neg same, mirrors.inFlight]
      simp only [other, decide_false, Bool.false_eq_true, ↓reduceIte] at split
      omega
  · intro owner lane modelKey
    have split := BTreeMap.countValues_erase
      (fun other => decide (ownerOf other = owner ∧ other.lane = lane ∧
        modelIdKey other.model = modelKey)) found
    rw [release_modelCount counted modelCounted]
    by_cases same : owner = ownerOf reservation ∧ lane = reservation.lane ∧
        modelKey = modelIdKey reservation.model
    · obtain ⟨rfl, rfl, rfl⟩ := same
      rw [if_pos ⟨rfl, rfl, rfl⟩, mirrors.models]
      simp only [and_self, decide_true, ↓reduceIte] at split
      omega
    · have other : ¬(ownerOf reservation = owner ∧ reservation.lane = lane ∧
          modelIdKey reservation.model = modelKey) :=
        fun equal => same ⟨equal.1.symm, equal.2.1.symm, equal.2.2.symm⟩
      rw [if_neg same, mirrors.models]
      simp only [other, decide_false, Bool.false_eq_true, ↓reduceIte] at split
      omega
  · intro owner
    have split := BTreeMap.countValues_erase
      (fun other => decide (ownerOf other = owner)) found
    have loads := release_load counted modelCounted owner
    rw [mirrors.load] at loads
    by_cases same : owner = ownerOf reservation
    · simp only [same, decide_true, ↓reduceIte] at split loads ⊢
      omega
    · simp only [same, Ne.symm same, decide_false, Bool.false_eq_true, ↓reduceIte] at split loads ⊢
      omega

/-- Dropping an owner that no reservation is recorded under changes no count. -/
theorem Mirrors.removeCandidate (mirrors : activity.Mirrors ownerOf active) {owner : String}
    (unused : BTreeMap.countValues active (fun reservation => ownerOf reservation = owner) = 0) :
    (activity.removeCandidate owner).Mirrors ownerOf active := by
  have none : ∀ test : Reservation → Bool,
      (∀ reservation, test reservation = true → ownerOf reservation = owner) →
      BTreeMap.countValues active test = 0 := by
    intro test owned
    have below := BTreeMap.countValues_le_of_imp active
      (fun reservation passes => decide_eq_true (owned reservation passes))
    exact Nat.eq_zero_of_le_zero (unused ▸ below)
  constructor
  · intro other lane
    rw [removeCandidate_inFlight]
    split
    next same =>
      rw [none]
      intro reservation counted
      simp only [decide_eq_true_eq] at counted
      exact counted.1.trans same
    next => exact mirrors.inFlight other lane
  · intro other lane modelKey
    rw [removeCandidate_modelCount]
    split
    next same =>
      rw [none]
      intro reservation counted
      simp only [decide_eq_true_eq] at counted
      exact counted.1.trans same
    next => exact mirrors.models other lane modelKey
  · intro other
    rw [removeCandidate_load]
    split
    next same => rw [same, unused]
    next => exact mirrors.load other

end SchedulerActivity

namespace PoolScheduler

variable {scheduler : PoolScheduler} {candidateId : String} {reservationId : ReservationId}

/-- Number of live reservations that pass `test`. -/
def liveReservations (scheduler : PoolScheduler) (test : Reservation → Bool) : Nat :=
  BTreeMap.countValues scheduler.reservations.active test

/-- The member whose activity goes with a candidate: no other candidate belongs to it. -/
def droppedMember (scheduler : PoolScheduler) (candidateId : String) : Option String :=
  scheduler.candidates[candidateId]?.bind fun candidate =>
    if (BTreeMap.values (scheduler.candidates.erase candidateId)).any fun other =>
        other.memberKey == candidate.memberKey then none
    else some candidate.memberKey

/-- The step drops no member that a live reservation is recorded under, and no
reservation it records meets a counter at its bound. -/
def KeepsMirror (scheduler : PoolScheduler) : SchedulerOperation → Prop
  | .remove candidateId =>
    scheduler.activeRequestCount candidateId = 0 →
      ∀ key ∈ scheduler.droppedMember candidateId,
        scheduler.liveReservations (fun reservation => reservation.memberKey = key) = 0
  | .releaseReservation reservationId =>
    scheduler.releasable reservationId = true →
      ∀ released ∈ scheduler.reservations.active[reservationId]?,
        let remaining := scheduler.reservations.active.erase reservationId
        scheduler.retiredCandidates.contains released.candidateId = true →
        BTreeMap.countValues remaining
          (fun reservation => reservation.candidateId = released.candidateId) = 0 →
        ∀ key ∈ scheduler.droppedMember released.candidateId,
          BTreeMap.countValues remaining (fun reservation => reservation.memberKey = key) = 0
  | .reserveRequestWithOperation request =>
    scheduler.liveReservations (fun reservation =>
        reservation.candidateId = request.candidateId ∧
          reservation.lane = laneOf request.image) < u32Max ∧
      ∀ candidate ∈ scheduler.candidates[request.candidateId]?,
        scheduler.liveReservations (fun reservation =>
          reservation.memberKey = candidate.memberKey) < u32Max
  | _ => True

instance (scheduler : PoolScheduler) (operation : SchedulerOperation) :
    Decidable (scheduler.KeepsMirror operation) := by
  unfold KeepsMirror
  split <;> infer_instance

/-- What the activity, the reservation table and the lease table say of each other. -/
structure WorkInvariant (scheduler : PoolScheduler) : Prop where
  candidates : scheduler.activity.Mirrors Reservation.candidateId scheduler.reservations.active
  members : scheduler.memberActivity.Mirrors Reservation.memberKey scheduler.reservations.active
  bounded : ∀ key, scheduler.liveReservations (fun reservation => reservation.memberKey = key) ≤ u32Max
  leases : ∀ (reservationId : ReservationId) (lease : RotationLease),
    scheduler.rotationLeases[reservationId]? = some lease →
      ∃ reservation, scheduler.reservations.active[reservationId]? = some reservation ∧
        reservation.candidateId = lease.candidateId
  issued : ∀ (reservationId : ReservationId) (reservation : Reservation),
    scheduler.reservations.active[reservationId]? = some reservation →
      reservationId ≤ scheduler.reservations.nextId

namespace WorkInvariant

theorem create : PoolScheduler.create.WorkInvariant where
  candidates := .empty _
  members := .empty _
  bounded key := by simp [liveReservations, PoolScheduler.create, Reservations.default]
  leases reservationId lease found := by simp [PoolScheduler.create] at found
  issued reservationId reservation found := by
    simp [PoolScheduler.create, Reservations.default] at found

/-- The invariant reads five parts of the scheduler. -/
theorem transport (invariant : scheduler.WorkInvariant) {after : PoolScheduler}
    (activity : scheduler.activity.SameLoad after.activity)
    (memberActivity : scheduler.memberActivity.SameLoad after.memberActivity)
    (reservations : after.reservations = scheduler.reservations)
    (leases : ∀ (reservationId : ReservationId) (lease : RotationLease),
      after.rotationLeases[reservationId]? = some lease →
        scheduler.rotationLeases[reservationId]? = some lease) : after.WorkInvariant where
  candidates := reservations ▸ invariant.candidates.sameLoad activity
  members := reservations ▸ invariant.members.sameLoad memberActivity
  bounded key := by
    rw [liveReservations, reservations]
    exact invariant.bounded key
  leases reservationId lease found := by
    rw [reservations]
    exact invariant.leases reservationId lease (leases reservationId lease found)
  issued reservationId reservation found := by
    rw [reservations] at found ⊢
    exact invariant.issued reservationId reservation found

/-- A candidate that looks idle has no live reservation. -/
theorem idle (invariant : scheduler.WorkInvariant)
    (idle : scheduler.activeRequestCount candidateId = 0) :
    scheduler.liveReservations (fun reservation => reservation.candidateId = candidateId) = 0 := by
  have load := invariant.candidates.load candidateId
  rw [activeRequestCount, SchedulerActivity.activeRequestCount_eq] at idle
  rw [liveReservations, ← load]
  have positive : 0 < u32Max := by decide
  omega

end WorkInvariant

/-- Dropping the reservations of an idle candidate drops none. -/
theorem removeCandidate_idle
    (idle : scheduler.liveReservations
      (fun reservation => reservation.candidateId = candidateId) = 0) :
    scheduler.reservations.removeCandidate candidateId = scheduler.reservations := by
  have kept : (scheduler.reservations.active.filter fun _ reservation =>
      reservation.candidateId ≠ candidateId) = scheduler.reservations.active := by
    apply BTreeMap.ext_lookup
    intro reservationId
    rw [BTreeMap.lookup_filter]
    cases found : scheduler.reservations.active[reservationId]? with
    | none => rfl
    | some reservation =>
        by_cases own : reservation.candidateId = candidateId
        · have counted : 0 < scheduler.liveReservations
              (fun reservation => reservation.candidateId = candidateId) :=
            (BTreeMap.countValues_pos_iff _).mpr ⟨reservationId, reservation, found, by simp [own]⟩
          omega
        · simp [Option.filter, own]
  rw [Reservations.removeCandidate, kept]

theorem WorkInvariant.eraseCandidate (invariant : scheduler.WorkInvariant)
    (idle : scheduler.liveReservations
      (fun reservation => reservation.candidateId = candidateId) = 0) :
    (scheduler.eraseCandidate candidateId).WorkInvariant := by
  have reservations : (scheduler.eraseCandidate candidateId).reservations =
      scheduler.reservations := removeCandidate_idle idle
  constructor
  · rw [reservations]
    exact invariant.candidates.removeCandidate idle
  · rw [reservations]
    exact invariant.members
  · intro key
    rw [liveReservations, reservations]
    exact invariant.bounded key
  · intro reservationId lease found
    rw [reservations]
    exact invariant.leases reservationId lease found
  · intro reservationId reservation found
    rw [reservations] at found ⊢
    exact invariant.issued reservationId reservation found

/-- A removed candidate takes the activity of its member along only when no live
reservation is recorded under that member. -/
theorem WorkInvariant.removeNow (invariant : scheduler.WorkInvariant)
    (idle : scheduler.liveReservations
      (fun reservation => reservation.candidateId = candidateId) = 0)
    (unused : ∀ key ∈ scheduler.droppedMember candidateId,
      scheduler.liveReservations (fun reservation => reservation.memberKey = key) = 0) :
    (scheduler.removeNow candidateId).1.WorkInvariant := by
  have erased := invariant.eraseCandidate idle
  have reservations : (scheduler.eraseCandidate candidateId).reservations =
      scheduler.reservations := removeCandidate_idle idle
  unfold PoolScheduler.removeNow
  cases found : scheduler.candidates[candidateId]? with
  | none => exact erased
  | some candidate =>
      dsimp only
      unfold removeMemberActivity
      split
      next => exact erased
      next last =>
        have dropped : candidate.memberKey ∈ scheduler.droppedMember candidateId := by
          unfold droppedMember
          rw [found, Option.bind_some]
          exact if_neg last
        have free := unused candidate.memberKey dropped
        rw [liveReservations, ← reservations] at free
        exact {
          candidates := erased.candidates
          members := erased.members.removeCandidate free
          bounded := erased.bounded
          leases := erased.leases
          issued := erased.issued }

/-- A recorded reservation counts once for its candidate and once for its member. -/
theorem WorkInvariant.recordReservation (invariant : scheduler.WorkInvariant)
    {reservation : Reservation} {lease : RotationLease}
    (same : reservation.candidateId = lease.candidateId)
    (candidateRoom : scheduler.liveReservations (fun other =>
      other.candidateId = reservation.candidateId ∧ other.lane = reservation.lane) < u32Max)
    (memberRoom : scheduler.liveReservations (fun other =>
      other.memberKey = reservation.memberKey) < u32Max) :
    (scheduler.recordReservation
      ⟨scheduler.reservations.nextId + 1,
        scheduler.reservations.active.insert (scheduler.reservations.nextId + 1) reservation⟩
      (scheduler.reservations.nextId + 1) reservation lease).WorkInvariant := by
  have fresh : scheduler.reservations.active[scheduler.reservations.nextId + 1]? = none := by
    cases found : scheduler.reservations.active[scheduler.reservations.nextId + 1]? with
    | none => rfl
    | some other =>
        exact absurd (invariant.issued _ other found) (Nat.not_succ_le_self _)
  constructor
  · exact invariant.candidates.reserve fresh candidateRoom
  · refine invariant.members.reserve fresh (Nat.lt_of_le_of_lt ?_ memberRoom)
    apply BTreeMap.countValues_le_of_imp
    intro other counted
    simp only [decide_eq_true_eq] at counted ⊢
    exact counted.1
  · intro key
    have total := BTreeMap.countValues_insert_fresh
      (fun other => decide (other.memberKey = key)) fresh reservation
    have bounded := invariant.bounded key
    refine Nat.le_trans (Nat.le_of_eq total) ?_
    unfold liveReservations at bounded memberRoom
    by_cases own : reservation.memberKey = key
    · rw [own] at memberRoom
      simp only [own, decide_true, ↓reduceIte]
      omega
    · simp only [own, decide_false, Bool.false_eq_true, ↓reduceIte]
      omega
  · intro other otherLease found
    by_cases own : other = scheduler.reservations.nextId + 1
    · refine ⟨reservation, by simp [PoolScheduler.recordReservation, own], ?_⟩
      simp [PoolScheduler.recordReservation, own] at found
      rw [same, found]
    · simp [PoolScheduler.recordReservation, own] at found
      obtain ⟨stored, live, sameCandidate⟩ := invariant.leases other otherLease found
      exact ⟨stored, by simp [PoolScheduler.recordReservation, own, live], sameCandidate⟩
  · intro other stored found
    by_cases own : other = scheduler.reservations.nextId + 1
    · simp [PoolScheduler.recordReservation, own]
    · simp [PoolScheduler.recordReservation, own] at found
      exact Nat.le_succ_of_le (invariant.issued other stored found)

theorem WorkInvariant.remove (invariant : scheduler.WorkInvariant)
    (keeps : scheduler.KeepsMirror (.remove candidateId)) :
    (scheduler.remove candidateId).1.WorkInvariant := by
  obtain ⟨limits, references, absent | retired | dropped⟩ := scheduler.remove_cases candidateId
  · rw [absent.2]
    exact invariant.transport (.refl _) (.refl _) rfl fun _ _ found => found
  · rw [retired.2.2]
    exact invariant.transport (.refl _) (.refl _) rfl fun _ _ found => found
  · obtain ⟨rotation, -, idle, equal⟩ := dropped
    rw [equal]
    have same : { scheduler with
        sharedRateLimits := limits
        quotaReferences := references
        rotation : PoolScheduler }.WorkInvariant :=
      invariant.transport (.refl _) (.refl _) rfl fun _ _ found => found
    exact same.removeNow (invariant.idle idle) (keeps idle)

/-- The reservation that leaves the table takes its own request out of both counts. -/
theorem WorkInvariant.releaseActivity (invariant : scheduler.WorkInvariant)
    {reservation : Reservation} {rotation : RotationEngine}
    {rotationLeases : BTreeMap ReservationId RotationLease}
    (found : scheduler.reservations.active[reservationId]? = some reservation)
    (dropped : rotationLeases[reservationId]? = none)
    (kept : ∀ (other : ReservationId) (lease : RotationLease),
      rotationLeases[other]? = some lease → scheduler.rotationLeases[other]? = some lease) :
    ({ scheduler with
        rotation
        rotationLeases
        reservations := ⟨scheduler.reservations.nextId,
          scheduler.reservations.active.erase reservationId⟩ }.releaseActivity
      reservation).WorkInvariant where
  candidates := invariant.candidates.release found
  members := invariant.members.release found
  bounded key := by
    have split := BTreeMap.countValues_erase
      (fun other : Reservation => decide (other.memberKey = key)) found
    refine Nat.le_trans (Nat.le_of_add_right_le (Nat.le_of_eq split)) (invariant.bounded key)
  leases other lease stored := by
    have live := invariant.leases other lease (kept other lease stored)
    by_cases same : other = reservationId
    · have gone : rotationLeases[reservationId]? = some lease := same ▸ stored
      rw [dropped] at gone
      cases gone
    · simpa [PoolScheduler.releaseActivity, same] using live
  issued other stored live := by
    by_cases same : other = reservationId
    · simp [PoolScheduler.releaseActivity, same] at live
    · simp [PoolScheduler.releaseActivity, same] at live
      exact invariant.issued other stored live

theorem WorkInvariant.releaseReservation (invariant : scheduler.WorkInvariant)
    (keeps : scheduler.KeepsMirror (.releaseReservation reservationId)) :
    (scheduler.releaseReservation reservationId).1.WorkInvariant := by
  obtain ⟨rotation, leases, kept, refused | ⟨reservation, found, dropped, releasable, released⟩⟩ :=
    scheduler.releaseReservation_cases reservationId
  · rw [refused]
    exact invariant.transport (.refl _) (.refl _) rfl kept
  · rw [released]
    have after := @WorkInvariant.releaseActivity _ _ invariant _ rotation _ found dropped kept
    unfold finalizeRetiredIfIdle
    split
    next finalizes =>
      have idle := after.idle finalizes.2
      exact after.removeNow idle (keeps releasable reservation found finalizes.1 idle)
    next => exact after

theorem WorkInvariant.reserve (invariant : scheduler.WorkInvariant) {request : ReserveRequest}
    (keeps : scheduler.KeepsMirror (.reserveRequestWithOperation request)) :
    (scheduler.reserveRequestWithOperation request).1.WorkInvariant := by
  obtain ⟨rotation, refused | ⟨candidate, lease, reserves, reserved⟩⟩ :=
    scheduler.reserveRequestWithOperation_cases request
  · rw [refused]
    exact invariant.transport (.refl _) (.refl _) rfl fun _ _ found => found
  · rw [reserved]
    have same : ({ scheduler with rotation } : PoolScheduler).WorkInvariant :=
      invariant.transport (.refl _) (.refl _) rfl fun _ _ found => found
    exact same.recordReservation reserves.sameCandidate.symm keeps.1
      (keeps.2 candidate reserves.found)

theorem WorkInvariant.apply (invariant : scheduler.WorkInvariant)
    {operation : SchedulerOperation} (keeps : scheduler.KeepsMirror operation) :
    (scheduler.apply operation).WorkInvariant := by
  cases moves : operation.movesWork with
  | false =>
      have same := scheduler.apply_sameWork operation moves
      exact invariant.transport same.activity same.memberActivity same.reservations same.leases
  | true =>
      cases operation with
      | upsert candidate =>
          obtain ⟨limits, revisions, refused | installed⟩ := scheduler.upsert_cases candidate
          · rw [PoolScheduler.apply, refused]
            exact invariant.transport (.refl _) (.refl _) rfl fun _ _ found => found
          · rw [PoolScheduler.apply, installed]
            exact invariant.transport (.refl _) (.refl _) rfl fun _ _ found => found
      | remove removed => exact invariant.remove keeps
      | reserveRequestWithOperation request => exact invariant.reserve keeps
      | releaseReservation reservationId => exact invariant.releaseReservation keeps
      | _ => cases moves

/-! ## Releasing twice -/

theorem releaseReservation_absent
    (unleased : scheduler.rotationLeases[reservationId]? = none)
    (absent : scheduler.reservations.active[reservationId]? = none) :
    scheduler.releaseReservation reservationId = (scheduler, false) := by
  have missing : scheduler.rotationLeases.contains reservationId = false := by
    rw [Std.ExtTreeMap.contains_eq_isSome_getElem?, unleased]
    rfl
  simp [releaseReservation, missing, dropReservation, Reservations.release, absent]

theorem dropReservation_absent (unleased : scheduler.rotationLeases[reservationId]? = none) :
    (scheduler.dropReservation reservationId).1.releaseReservation reservationId =
      ((scheduler.dropReservation reservationId).1, false) := by
  cases found : scheduler.reservations.active[reservationId]? with
  | none =>
      have same : scheduler.dropReservation reservationId = (scheduler, false) := by
        simp [dropReservation, Reservations.release, found]
      rw [same]
      exact releaseReservation_absent unleased found
  | some reservation =>
      have dropped : (scheduler.dropReservation reservationId).1 =
          (({ scheduler with
              reservations := (scheduler.reservations.release reservationId).1 }.releaseActivity
            reservation).finalizeRetiredIfIdle reservation.candidateId) := by
        simp [dropReservation, Reservations.release, found]
      rw [dropped]
      apply releaseReservation_absent
      · unfold finalizeRetiredIfIdle
        split
        · obtain ⟨memberActivity, same⟩ := removeNow_same
            ({ scheduler with
              reservations := (scheduler.reservations.release reservationId).1 }.releaseActivity
              reservation) reservation.candidateId
          rw [same]
          exact unleased
        · exact unleased
      · unfold finalizeRetiredIfIdle
        split
        · obtain ⟨memberActivity, same⟩ := removeNow_same
            ({ scheduler with
              reservations := (scheduler.reservations.release reservationId).1 }.releaseActivity
              reservation) reservation.candidateId
          rw [same]
          simp [PoolScheduler.eraseCandidate, PoolScheduler.releaseActivity,
            Reservations.removeCandidate, Reservations.release]
        · simp [PoolScheduler.releaseActivity, Reservations.release]

/-- Whatever the first release of a reservation did, a second one changes nothing. -/
private theorem releaseReservation_twice (scheduler : PoolScheduler) (reservationId : ReservationId) :
    (scheduler.releaseReservation reservationId).1.releaseReservation reservationId =
      ((scheduler.releaseReservation reservationId).1, false) := by
  cases leased : scheduler.rotationLeases[reservationId]? with
  | none =>
      have missing : scheduler.rotationLeases.contains reservationId = false := by
        rw [Std.ExtTreeMap.contains_eq_isSome_getElem?, leased]
        rfl
      have first : scheduler.releaseReservation reservationId =
          scheduler.dropReservation reservationId := by
        rw [releaseReservation, missing]
        rfl
      rw [first]
      exact dropReservation_absent leased
  | some lease =>
      have present : scheduler.rotationLeases.contains reservationId = true := by
        rw [Std.ExtTreeMap.contains_eq_isSome_getElem?, leased]
        rfl
      cases pair : scheduler.rotation.releaseUnstarted lease.leaseId with
      | mk rotation released =>
          cases released with
          | false =>
              have refused := RotationEngine.releaseUnstarted_refused (congrArg Prod.snd pair)
              have same : rotation = scheduler.rotation := by rw [← refused, pair]
              have first : scheduler.releaseReservation reservationId = (scheduler, false) := by
                rw [releaseReservation, if_pos present, releaseRotationUnstarted, leased]
                simp only [pair, same]
              rw [first]
              exact first
          | true =>
              have first : scheduler.releaseReservation reservationId =
                  ({ scheduler with
                      rotation
                      rotationLeases :=
                        scheduler.rotationLeases.erase reservationId }.dropReservation
                    reservationId) := by
                rw [releaseReservation, if_pos present, releaseRotationUnstarted, leased]
                simp only [pair]
              rw [first]
              exact dropReservation_absent (by simp)

/-! ## Activity mirrors the reservation table -/

private theorem run_workInvariant {operations : List SchedulerOperation}
    (keeps : Execution.Along apply KeepsMirror create operations) :
    (create.runOperations operations).WorkInvariant :=
  keeps.run_invariant WorkInvariant (fun _ _ invariant step => invariant.apply step) .create

/-- Along every run that drops no member under a live reservation, the activity of
candidates and members counts the live reservations, every lease held belongs to
one of them, and a second release of any reservation changes nothing. -/
theorem activity_mirrors_reservations {operations : List SchedulerOperation}
    (keeps : Execution.Along apply KeepsMirror create operations) :
    let scheduler := create.runOperations operations
    (∀ candidateId lane, scheduler.inFlightCount candidateId lane =
      scheduler.liveReservations fun reservation =>
        reservation.candidateId = candidateId ∧ reservation.lane = lane) ∧
    (∀ key, scheduler.memberActivity.activeRequestCount key =
      scheduler.liveReservations fun reservation => reservation.memberKey = key) ∧
    (∀ (reservationId : ReservationId) (lease : RotationLease),
      scheduler.rotationLeases[reservationId]? = some lease →
        ∃ reservation, scheduler.reservations.active[reservationId]? = some reservation ∧
          reservation.candidateId = lease.candidateId) ∧
    ∀ reservationId, (scheduler.releaseReservation reservationId).1.releaseReservation
      reservationId = ((scheduler.releaseReservation reservationId).1, false) := by
  intro scheduler
  have invariant : scheduler.WorkInvariant := run_workInvariant keeps
  refine ⟨invariant.candidates.inFlight, ?_, invariant.leases,
    scheduler.releaseReservation_twice⟩
  intro key
  have bounded := invariant.bounded key
  rw [SchedulerActivity.activeRequestCount_eq, invariant.members.load]
  exact Nat.min_eq_left bounded

/-- A candidate removed under a request in flight, and dropped by its release. -/
theorem activity_mirrors_reservations_drained :
    let scheduler := create.runOperations
      [.upsert (sampleCandidate "route" "first"),
        .reserveRequestWithOperation (sampleReserve "route" 1), .remove "route",
        .releaseReservation 1]
    scheduler.inFlightCount "route" .text =
      scheduler.liveReservations fun reservation =>
        reservation.candidateId = "route" ∧ reservation.lane = .text :=
  (activity_mirrors_reservations (by decide +kernel)).1 "route" .text

/-- A route moves to another account with a request in flight; the removal of an
idle route of the first account then drops the count of that request. -/
theorem moved_route_loses_activity :
    let scheduler := create.runOperations
      [.upsert (sampleCandidate "route" "first"),
        .reserveRequestWithOperation (sampleReserve "route" 1),
        .upsert (sampleCandidate "route" "second"),
        .upsert (sampleCandidate "spare" "first"), .remove "spare"]
    scheduler.memberActivity.activeRequestCount "account:first" = 0 ∧
      scheduler.liveReservations
        (fun reservation => reservation.memberKey = "account:first") = 1 := by
  refine ⟨?_, ?_⟩
  · decide +kernel
  · decide +kernel

end PoolScheduler

end ZenithRelay.Scheduler
