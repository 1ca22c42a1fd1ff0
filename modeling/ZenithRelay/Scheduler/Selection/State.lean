import ZenithRelay.Scheduler.Activity
import ZenithRelay.Scheduler.Affinity
import ZenithRelay.Scheduler.Policy
import ZenithRelay.Scheduler.Rotation.Engine.Lifecycle

/-!
# Pool scheduler state

Candidates with their observations, conversation ownership, the activity of
reserved requests, and the rotation engine that admits them.
-/

set_option autoImplicit false

namespace ZenithRelay.Scheduler

open Rotation

def responseAffinityMaxEntries : Nat := 16384
def responseAffinityTtlMs : Nat := 30 * 24 * 60 * 60 * 1000
def promptAffinityMaxEntries : Nat := 16384
def promptAffinityTtlMs : Nat := 60 * 60 * 1000
def maxOAuthImageInFlight : Nat := 1

abbrev ReservationId := Nat

structure Reservation where
  candidateId : String
  memberKey : String
  model : String
  lane : InFlightLane
  deriving DecidableEq, Repr

structure Reservations where
  nextId : Nat
  active : BTreeMap ReservationId Reservation

structure RateLimitObservation where
  bucket : BitVec 256
  observedAtMs : Nat
  retryAtMs : Nat
  backoffMs : Nat
  deriving DecidableEq, Repr

structure PoolScheduler where
  candidates : BTreeMap String RuntimeCandidate
  quotaReferences : BTreeMap String CandidateQuotaReference
  cooldownReasons : BTreeMap (String × String) CooldownReason
  sharedRateLimits : BTreeMap (String × String) RateLimitObservation
  responseAffinity : AffinityCache
  promptAffinity : AffinityCache
  activity : SchedulerActivity
  memberActivity : SchedulerActivity
  poolRouting : Option PoolRoutingPolicy
  nativeRoutes : BTreeSet String
  reservations : Reservations
  quotaStaleAfterMs : Nat
  protectedCandidate : Option (String × Nat)
  executionFences : BTreeMap String (Nat × Nat)
  nextExecutionFenceEpoch : Nat
  capabilityBlocks : BTreeSet (String × String)
  /-- Only structural permission edits advance this fence. -/
  candidatePermissionRevisions : BTreeMap String Nat
  /-- Removed candidates remain as tombstones while leases are active. -/
  retiredCandidates : BTreeSet String
  rotation : RotationEngine
  rotationLeases : BTreeMap ReservationId RotationLease
  /-- A superseded runtime may settle existing work, but cannot start more. -/
  retired : Bool

namespace Reservations

def default : Reservations := ⟨0, ∅⟩

def removeCandidate (reservations : Reservations) (candidateId : String) : Reservations :=
  { reservations with
    active := reservations.active.filter fun _ reservation =>
      reservation.candidateId ≠ candidateId }

def reserve (reservations : Reservations) (reservation : Reservation) :
    Reservations × Option ReservationId :=
  if reservations.nextId < u64Max then
    let reservationId := reservations.nextId + 1
    (⟨reservationId, reservations.active.insert reservationId reservation⟩, some reservationId)
  else (reservations, none)

def release (reservations : Reservations) (reservationId : ReservationId) :
    Reservations × Option Reservation :=
  ({ reservations with active := reservations.active.erase reservationId },
    reservations.active[reservationId]?)

end Reservations

namespace PoolScheduler

/-- `PoolScheduler::new`. -/
def create : PoolScheduler where
  candidates := ∅
  quotaReferences := ∅
  cooldownReasons := ∅
  sharedRateLimits := ∅
  responseAffinity := .create responseAffinityMaxEntries responseAffinityTtlMs
  promptAffinity := .create promptAffinityMaxEntries promptAffinityTtlMs
  activity := .default
  memberActivity := .default
  poolRouting := none
  nativeRoutes := ∅
  reservations := .default
  quotaStaleAfterMs := Rotation.quotaStaleAfterMs
  protectedCandidate := none
  executionFences := ∅
  nextExecutionFenceEpoch := 0
  capabilityBlocks := ∅
  candidatePermissionRevisions := ∅
  retiredCandidates := ∅
  rotation := .default
  rotationLeases := ∅
  retired := false

def retireForReplacement (scheduler : PoolScheduler) : PoolScheduler :=
  { scheduler with retired := true }

def inFlightCount (scheduler : PoolScheduler) (candidateId : String) (lane : InFlightLane) : Nat :=
  scheduler.activity.inFlightCount candidateId lane

def activeRequestCount (scheduler : PoolScheduler) (candidateId : String) : Nat :=
  scheduler.activity.activeRequestCount candidateId

end PoolScheduler

/-! ## Physical members -/

def accountMemberKey (accountId : String) : String := "account:" ++ accountId

def sourceMemberKey (sourceId : String) : String := "source:" ++ sourceId

namespace RuntimeCandidate

def identity (candidate : RuntimeCandidate) : PoolMemberKind × String :=
  match candidate.kind with
  | .oAuthAccount => (.account, candidate.accountId.getD candidate.id)
  | .apiSource => (.source, candidate.sourceId)

def memberKey (candidate : RuntimeCandidate) : String :=
  match candidate.identity with
  | (.account, id) => accountMemberKey id
  | (.source, id) => sourceMemberKey id

end RuntimeCandidate

namespace PoolScheduler

def memberKeyFor (scheduler : PoolScheduler) (candidateId : String) : Option String :=
  scheduler.candidates[candidateId]?.map (·.memberKey)

def setNativeRoute (scheduler : PoolScheduler) (candidateId : String) (native : Bool) :
    PoolScheduler :=
  { scheduler with
    nativeRoutes :=
      if native then scheduler.nativeRoutes.insert candidateId
      else scheduler.nativeRoutes.erase candidateId }

/-- The saved rank and policy of the physical member of a candidate. -/
def memberPolicy (scheduler : PoolScheduler) (candidate : RuntimeCandidate) :
    Option (Nat × PoolRoutingMember) :=
  scheduler.poolRouting.bind fun policy =>
    (policy.members.zipIdx.find? fun entry => (entry.1.kind, entry.1.id) = candidate.identity).map
      fun entry => (entry.2, entry.1)

def memberWeight (scheduler : PoolScheduler) (candidate : RuntimeCandidate) : Nat :=
  match scheduler.memberPolicy candidate with
  | some (_, member) => member.weight
  | none => max 1 (min candidate.weight 100)

def memberCapacityAllows (scheduler : PoolScheduler) (candidate : RuntimeCandidate) : Bool :=
  match scheduler.memberPolicy candidate with
  | some (_, member) =>
    member.maxConcurrency == 0 ||
      decide (scheduler.memberActivity.activeRequestCount candidate.memberKey <
        member.maxConcurrency)
  | none => true

def laneAllows (scheduler : PoolScheduler) (candidate : RuntimeCandidate) (lane : InFlightLane) :
    Bool :=
  if !scheduler.memberCapacityAllows candidate then false
  else if candidate.kind != .oAuthAccount || lane == .text then true
  else decide (scheduler.inFlightCount candidate.id .image < maxOAuthImageInFlight)

end PoolScheduler

end ZenithRelay.Scheduler
