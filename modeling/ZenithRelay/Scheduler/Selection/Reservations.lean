import ZenithRelay.Scheduler.Selection.Registry

/-!
# Reservations

A reserved request counts in the activity of its candidate and member from its
reservation to its release; the rotation lease it holds may be settled earlier.
-/

set_option autoImplicit false

namespace ZenithRelay.Scheduler

open Rotation

/-- What a caller reserves: a candidate it selected, for a model and operation. -/
structure ReserveRequest where
  candidateId : String
  model : String
  nowMs : Nat
  image : Bool
  operation : RotationOperation
  requestId : Option RequestId
  rotationRequest : Option RotationRequest
  /-- The id the engine draws when the caller brings none. -/
  freshRequestId : RequestId

namespace PoolScheduler

def laneOf (image : Bool) : InFlightLane := if image then .image else .text

/-- The engine request of a reservation. -/
def preparedRotationRequest (request : ReserveRequest) : RotationRequest :=
  let prepared := request.rotationRequest.getD
    (rotationRequest (request.requestId.getD request.freshRequestId) (some request.candidateId)
      request.model request.operation
      ((∅ : BTreeSet String).insert request.candidateId))
  match request.requestId with
  | some requestId => { prepared with requestId }
  | none => prepared

/-- The part of `reserve_request_with_operation` after its last check. -/
def recordReservation (scheduler : PoolScheduler) (reservations : Reservations)
    (reservationId : ReservationId) (reservation : Reservation) (lease : RotationLease) :
    PoolScheduler :=
  { scheduler with
    reservations
    memberActivity := scheduler.memberActivity.reserve reservation.memberKey reservation.model
      reservation.lane
    activity := scheduler.activity.reserve reservation.candidateId reservation.model
      reservation.lane
    rotationLeases := scheduler.rotationLeases.insert reservationId lease }

def reserveRequestWithOperation (scheduler : PoolScheduler) (request : ReserveRequest) :
    PoolScheduler × Option ReservationId :=
  if scheduler.retired then (scheduler, none)
  else
    match scheduler.candidates[request.candidateId]? with
    | none => (scheduler, none)
    | some candidate =>
      if !scheduler.laneAllows candidate (laneOf request.image) then (scheduler, none)
      else
        let synced := scheduler.syncAllRotationCandidates
        match synced.rotation.reserve (preparedRotationRequest request) request.nowMs with
        | (rotation, .error _) => ({ synced with rotation }, none)
        | (rotation, .ok lease) =>
          if lease.candidateId ≠ request.candidateId then
            ({ synced with rotation := (rotation.releaseUnstarted lease.leaseId).1 }, none)
          else
            let reservation : Reservation := {
              candidateId := request.candidateId
              memberKey := candidate.memberKey
              model := request.model
              lane := laneOf request.image }
            match synced.reservations.reserve reservation with
            | (reservations, some reservationId) =>
              (({ synced with rotation } : PoolScheduler).recordReservation reservations
                reservationId reservation lease, some reservationId)
            | (_, none) =>
              ({ synced with rotation := (rotation.releaseUnstarted lease.leaseId).1 }, none)

def recordReservationDispatch (scheduler : PoolScheduler) (reservationId : ReservationId)
    (unixTimeMs : Nat) : PoolScheduler :=
  match scheduler.reservations.active[reservationId]? with
  | none => scheduler
  | some reservation =>
    { scheduler with
      activity := scheduler.activity.recordDispatch reservation.candidateId reservation.lane
      memberActivity := scheduler.memberActivity.recordDispatch reservation.memberKey
        reservation.lane
      candidates := scheduler.candidates.modify reservation.candidateId fun candidate =>
        { candidate with lastUsedAt := some unixTimeMs } }

def beginRotationDispatch (scheduler : PoolScheduler) (reservationId : ReservationId)
    (budget : RequestBudget) (clock : ClockReadings) (unixTimeMs : Nat) :
    PoolScheduler × RequestBudget × Except DispatchStartError AttemptId :=
  if scheduler.retired then (scheduler, budget, .error .candidateChanged)
  else
    let synced := scheduler.syncAllRotationCandidates
    match synced.rotationLeases[reservationId]? with
    | none => (synced, budget, .error .unknownLease)
    | some lease =>
      match synced.rotation.beginTransportDispatch lease.leaseId budget clock with
      | (rotation, budget, .error error) => ({ synced with rotation }, budget, .error error)
      | (rotation, budget, .ok attemptId) =>
        (({ synced with rotation } : PoolScheduler).recordReservationDispatch reservationId
          unixTimeMs, budget, .ok attemptId)

/-- The lease of a settled outcome is dropped; a refused one stays as it was. -/
def settleRotationLease (scheduler : PoolScheduler) (reservationId : ReservationId)
    (settle : RotationLease → RotationEngine × Except SettlementError RotationSettlement) :
    PoolScheduler × Except SettlementError RotationSettlement :=
  match scheduler.rotationLeases[reservationId]? with
  | none => (scheduler, .error .unknownLease)
  | some lease =>
    match settle lease with
    | (rotation, .error error) => ({ scheduler with rotation }, .error error)
    | (rotation, .ok settlement) =>
      ({ scheduler with
          rotation
          rotationLeases := scheduler.rotationLeases.erase reservationId }, .ok settlement)

def settleRotationWithLatency (scheduler : PoolScheduler) (reservationId : ReservationId)
    (observation : AttemptObservation) (budget : RequestBudget) (clock : ClockReadings)
    (nowMs : Nat) (firstOutputLatencyMs : Option Nat) :
    PoolScheduler × Except SettlementError RotationSettlement :=
  scheduler.settleRotationLease reservationId fun lease =>
    scheduler.rotation.settleWithLatency lease.leaseId observation budget clock nowMs
      firstOutputLatencyMs

def settleRotation (scheduler : PoolScheduler) (reservationId : ReservationId)
    (observation : AttemptObservation) (budget : RequestBudget) (clock : ClockReadings)
    (nowMs : Nat) : PoolScheduler × Except SettlementError RotationSettlement :=
  scheduler.settleRotationWithLatency reservationId observation budget clock nowMs none

def cancelRotation (scheduler : PoolScheduler) (reservationId : ReservationId)
    (budget : RequestBudget) (clock : ClockReadings) (nowMs : Nat) :
    PoolScheduler × Except SettlementError RotationSettlement :=
  scheduler.settleRotationLease reservationId fun lease =>
    scheduler.rotation.cancel lease.leaseId budget clock nowMs

def releaseRotationUnstarted (scheduler : PoolScheduler) (reservationId : ReservationId) :
    PoolScheduler × Bool :=
  match scheduler.rotationLeases[reservationId]? with
  | none => (scheduler, false)
  | some lease =>
    match scheduler.rotation.releaseUnstarted lease.leaseId with
    | (rotation, true) =>
      ({ scheduler with
          rotation
          rotationLeases := scheduler.rotationLeases.erase reservationId }, true)
    | (rotation, false) => ({ scheduler with rotation }, false)

/-- The activity of a request that leaves the reservation table. -/
def releaseActivity (scheduler : PoolScheduler) (reservation : Reservation) : PoolScheduler :=
  { scheduler with
    activity := (scheduler.activity.release reservation.candidateId (some reservation.model)
      reservation.lane).1
    memberActivity := (scheduler.memberActivity.release reservation.memberKey
      (some reservation.model) reservation.lane).1 }

/-- The part of `release_reservation` after the rotation lease is gone. -/
def dropReservation (scheduler : PoolScheduler) (reservationId : ReservationId) :
    PoolScheduler × Bool :=
  match scheduler.reservations.release reservationId with
  | (_, none) => (scheduler, false)
  | (reservations, some reservation) =>
    ((({ scheduler with reservations } : PoolScheduler).releaseActivity
      reservation).finalizeRetiredIfIdle reservation.candidateId, true)

def releaseReservation (scheduler : PoolScheduler) (reservationId : ReservationId) :
    PoolScheduler × Bool :=
  if scheduler.rotationLeases.contains reservationId then
    match scheduler.releaseRotationUnstarted reservationId with
    | (released, false) => (released, false)
    | (released, true) => released.dropReservation reservationId
  else scheduler.dropReservation reservationId

/-! ## What a reservation and its release do -/

variable (scheduler : PoolScheduler)

/-- A reservation that is recorded, with everything checked before it. -/
structure Reserves (request : ReserveRequest) (candidate : RuntimeCandidate)
    (lease : RotationLease) : Prop where
  active : scheduler.retired = false
  found : scheduler.candidates[request.candidateId]? = some candidate
  lane : scheduler.laneAllows candidate (laneOf request.image) = true
  sameCandidate : lease.candidateId = request.candidateId
  room : scheduler.reservations.nextId < u64Max

/-- The record that a reservation of `candidate` stores. -/
def newReservation (request : ReserveRequest) (candidate : RuntimeCandidate) : Reservation where
  candidateId := request.candidateId
  memberKey := candidate.memberKey
  model := request.model
  lane := laneOf request.image

/-- A reservation is refused and touches the engine only, or it is recorded. -/
theorem reserveRequestWithOperation_cases (request : ReserveRequest) :
    ∃ rotation,
      scheduler.reserveRequestWithOperation request = ({ scheduler with rotation }, none) ∨
      ∃ candidate lease, scheduler.Reserves request candidate lease ∧
        scheduler.reserveRequestWithOperation request =
          ({ scheduler with rotation }.recordReservation
            ⟨scheduler.reservations.nextId + 1,
              scheduler.reservations.active.insert (scheduler.reservations.nextId + 1)
                (newReservation request candidate)⟩
            (scheduler.reservations.nextId + 1) (newReservation request candidate) lease,
            some (scheduler.reservations.nextId + 1)) := by
  unfold reserveRequestWithOperation
  split
  next => exact ⟨scheduler.rotation, .inl rfl⟩
  next active =>
  split
  next => exact ⟨scheduler.rotation, .inl rfl⟩
  next candidate found =>
  split
  next => exact ⟨scheduler.rotation, .inl rfl⟩
  next lane =>
  dsimp only
  split
  next rotation _ _ => exact ⟨rotation, .inl rfl⟩
  next rotation lease _ =>
  split
  next => exact ⟨_, .inl rfl⟩
  next sameCandidate =>
  by_cases room : scheduler.reservations.nextId < u64Max
  · refine ⟨rotation, .inr ⟨candidate, lease, ?_, ?_⟩⟩
    · exact {
        active := by simpa using active
        found
        lane := by simpa using lane
        sameCandidate := not_not.mp sameCandidate
        room }
    · simp [syncAllRotationCandidates, Reservations.reserve, room, newReservation]
  · refine ⟨(rotation.releaseUnstarted lease.leaseId).1, .inl ?_⟩
    simp [syncAllRotationCandidates, Reservations.reserve, room]

/-- Whether a release finds the lease gone or not started. -/
def releasable (reservationId : ReservationId) : Bool :=
  scheduler.rotationLeases[reservationId]?.all fun lease =>
    scheduler.rotation.leases[lease.leaseId]?.any (·.attemptId.isNone)

/-- A release is refused and drops at most a lease that never started, or it
takes the reservation out of the table and its activity. -/
theorem releaseReservation_cases (reservationId : ReservationId) :
    ∃ rotation rotationLeases,
      (∀ (other : ReservationId) (lease : RotationLease), rotationLeases[other]? = some lease →
        scheduler.rotationLeases[other]? = some lease) ∧
      (scheduler.releaseReservation reservationId =
          ({ scheduler with rotation, rotationLeases }, false) ∨
        ∃ reservation, scheduler.reservations.active[reservationId]? = some reservation ∧
          rotationLeases[reservationId]? = none ∧ scheduler.releasable reservationId = true ∧
          scheduler.releaseReservation reservationId =
            (({ scheduler with
                rotation
                rotationLeases
                reservations := ⟨scheduler.reservations.nextId,
                  scheduler.reservations.active.erase reservationId⟩ }.releaseActivity
              reservation).finalizeRetiredIfIdle reservation.candidateId, true)) := by
  have drop : ∀ rotation rotationLeases,
      ({ scheduler with rotation, rotationLeases }).dropReservation reservationId =
          ({ scheduler with rotation, rotationLeases }, false) ∨
        ∃ reservation, scheduler.reservations.active[reservationId]? = some reservation ∧
          ({ scheduler with rotation, rotationLeases }).dropReservation reservationId =
            (({ scheduler with
                rotation
                rotationLeases
                reservations := ⟨scheduler.reservations.nextId,
                  scheduler.reservations.active.erase reservationId⟩ }.releaseActivity
              reservation).finalizeRetiredIfIdle reservation.candidateId, true) := by
    intro rotation rotationLeases
    unfold dropReservation Reservations.release
    cases found : scheduler.reservations.active[reservationId]? with
    | none => exact .inl rfl
    | some reservation => exact .inr ⟨reservation, rfl, rfl⟩
  unfold releaseReservation
  cases leased : scheduler.rotationLeases[reservationId]? with
  | none =>
      have absent : scheduler.rotationLeases.contains reservationId = false := by
        rw [Std.ExtTreeMap.contains_eq_isSome_getElem?, leased]
        rfl
      refine ⟨scheduler.rotation, scheduler.rotationLeases, fun _ _ found => found, ?_⟩
      rw [if_neg (by simp [absent])]
      rcases drop scheduler.rotation scheduler.rotationLeases with refused | ⟨reservation, found, released⟩
      · exact .inl refused
      · exact .inr ⟨reservation, found, leased, by simp [releasable, leased], released⟩
  | some lease =>
      have present : scheduler.rotationLeases.contains reservationId = true := by
        rw [Std.ExtTreeMap.contains_eq_isSome_getElem?, leased]
        rfl
      rw [if_pos present]
      unfold releaseRotationUnstarted
      simp only [leased]
      cases unstarted : scheduler.rotation.releaseUnstarted lease.leaseId with
      | mk rotation released =>
          cases released with
          | false => exact ⟨rotation, scheduler.rotationLeases, fun _ _ found => found, .inl rfl⟩
          | true =>
              refine ⟨rotation, scheduler.rotationLeases.erase reservationId, ?_, ?_⟩
              · intro other otherLease found
                by_cases same : other = reservationId <;> simp [same] at found ⊢
                exact found
              · rcases drop rotation (scheduler.rotationLeases.erase reservationId) with
                  refused | ⟨reservation, found, released⟩
                · exact .inl refused
                · refine .inr ⟨reservation, found, by simp, ?_, released⟩
                  rw [releasable, leased, Option.all_some,
                    ← RotationEngine.releaseUnstarted_iff, unstarted]

end PoolScheduler

end ZenithRelay.Scheduler
