import ZenithRelay.Scheduler.Candidate

/-!
# Pool routing policy

The saved order, weights and concurrency limits of the physical members.
-/

set_option autoImplicit false

namespace ZenithRelay.Scheduler

inductive PoolRoutingMode where
  /-- Compatibility-only value of older policies; never active. -/
  | smart
  | automatic
  | inOrder
  | roundRobin
  | weightedRoundRobin
  | failover
  deriving DecidableEq, Repr

inductive PoolMemberKind where
  | account
  | source
  deriving DecidableEq, Repr

structure PoolRoutingMember where
  kind : PoolMemberKind
  id : String
  weight : Nat
  /-- Zero leaves capacity unrestricted by this policy. -/
  maxConcurrency : Nat
  deriving DecidableEq, Repr

structure PoolRoutingPolicy where
  version : Nat
  mode : PoolRoutingMode
  members : List PoolRoutingMember
  deriving DecidableEq, Repr

namespace PoolRoutingPolicy

def isCurrentRotation (policy : PoolRoutingPolicy) : Bool :=
  policy.version == 3 && policy.mode != .smart

def versionSupported (policy : PoolRoutingPolicy) : Bool :=
  [1, 2, 3].contains policy.version &&
    !(policy.version == 1 && policy.mode == .automatic) &&
    !(decide (policy.version ≥ 2) && policy.mode == .smart) &&
    !(decide (policy.version < 3) &&
      (policy.mode == .weightedRoundRobin || policy.mode == .failover))

/-- The checks of one member after the members in `seen`. -/
def validateMember (seen : List (PoolMemberKind × String)) (member : PoolRoutingMember) :
    Except String Unit :=
  if Rotation.RotationCandidate.identifierInvalid member.id then
    .error "pool routing member id is invalid"
  else if seen.contains (member.kind, member.id) then
    .error "pool routing members must be unique"
  else if ¬(1 ≤ member.weight ∧ member.weight ≤ 100) ∨ member.maxConcurrency > 1024 then
    .error "pool member weight or concurrency limit is invalid"
  else .ok ()

def validateMembers : List (PoolMemberKind × String) → List PoolRoutingMember → Except String Unit
  | _, [] => .ok ()
  | seen, member :: members =>
    match validateMember seen member with
    | .error message => .error message
    | .ok () => validateMembers ((member.kind, member.id) :: seen) members

def validate (policy : PoolRoutingPolicy) : Except String Unit :=
  if !policy.versionSupported then .error "unsupported pool routing policy version"
  else if policy.members.length > 4096 then .error "pool routing policy has too many members"
  else validateMembers [] policy.members

def validateActivation (policy : PoolRoutingPolicy) : Except String Unit :=
  match policy.validate with
  | .error message => .error message
  | .ok () =>
    if !policy.isCurrentRotation then .error "unsupported runtime rotation policy version"
    else .ok ()

theorem validateActivation_mode {policy : PoolRoutingPolicy}
    (valid : policy.validateActivation = .ok ()) : policy.mode ≠ .smart := by
  unfold validateActivation at valid
  split at valid
  next => cases valid
  next =>
    split at valid
    next => cases valid
    next current =>
      intro smart
      simp [isCurrentRotation, smart] at current

end PoolRoutingPolicy

end ZenithRelay.Scheduler
