import ZenithRelay.Scheduler.Selection.Registry

/-!
# Recovery

Provider deadlines of candidates and the rate-limit buckets they share.
-/

set_option autoImplicit false

namespace ZenithRelay.Scheduler

open Rotation

def observationTtlMs : Nat := 10 * 60000
def maxObservations : Nat := 4096
def minBackoffMs : Nat := 5000
def maxBackoffMs : Nat := 60000

structure CooldownRequest where
  scope : String
  retryAtMs : Nat
  reason : CooldownReason
  deriving DecidableEq, Repr

namespace PoolScheduler

def inModelScope (model scope : String) : Bool :=
  scope == "*" || Text.eqIgnoreAsciiCase scope model

def recordSuccess (scheduler : PoolScheduler) (candidateId model : String) (nowMs : Nat) :
    PoolScheduler × Bool :=
  match scheduler.candidates[candidateId]? with
  | none => (scheduler, false)
  | some candidate =>
    let cooldowns := candidate.cooldowns.filter fun scope retryAtMs =>
      !inModelScope model scope || decide (retryAtMs > nowMs)
    ({ scheduler with
        candidates := scheduler.candidates.modify candidateId fun candidate =>
          { candidate with cooldowns, lastUsedAt := some nowMs }
        cooldownReasons := scheduler.cooldownReasons.filter fun key _ =>
          key.1 ≠ candidateId || cooldowns.contains key.2 },
      !cooldowns.values.any fun retryAtMs => decide (retryAtMs > nowMs))

/-- Whether a cooldown request replaces the stored reason of its scope. -/
def storesReason (request : CooldownRequest) (previousReason : Option CooldownReason)
    (currentDeadline : Nat) : Bool :=
  decide (request.retryAtMs > currentDeadline) ||
    (request.retryAtMs == currentDeadline && request.reason == .rateLimit &&
      previousReason != some .mandatory) ||
    (request.reason == .mandatory && previousReason != some .mandatory)

/-- A deadline is never shortened; transient health is left to the circuits. -/
def setCooldownWithReason (scheduler : PoolScheduler) (candidateId : String)
    (request : CooldownRequest) : PoolScheduler × Bool :=
  if request.reason = .transient then (scheduler, false)
  else
    let scope := if request.scope = "*" then "*" else Text.toAsciiLowercase request.scope
    match scheduler.candidates[candidateId]? with
    | none => (scheduler, false)
    | some candidate =>
      let deadline := candidate.cooldowns[scope]?
      let previousReason := scheduler.cooldownReasons[(candidateId, scope)]?
      ({ scheduler with
          candidates := scheduler.candidates.modify candidateId fun candidate =>
            { candidate with
              cooldowns := candidate.cooldowns.insert scope
                ((deadline.map fun current => max current request.retryAtMs).getD
                  request.retryAtMs) }
          cooldownReasons :=
            if deadline.all (storesReason request previousReason) then
              scheduler.cooldownReasons.insert (candidateId, scope) request.reason
            else scheduler.cooldownReasons }, true)

def setCooldown (scheduler : PoolScheduler) (candidateId model : String) (retryAtMs : Nat) :
    PoolScheduler × Bool :=
  scheduler.setCooldownWithReason candidateId ⟨model, retryAtMs, .mandatory⟩

def clearCooldown (scheduler : PoolScheduler) (candidateId model : String) :
    PoolScheduler × Bool :=
  match scheduler.candidates[candidateId]? with
  | none => (scheduler, false)
  | some candidate =>
    let cooldowns := candidate.cooldowns.filter fun scope _ =>
      !Text.eqIgnoreAsciiCase scope model
    let edited := { scheduler with
      candidates := scheduler.candidates.modify candidateId fun candidate =>
        { candidate with cooldowns } }
    if cooldowns.size ≠ candidate.cooldowns.size then
      ({ edited with
          cooldownReasons := scheduler.cooldownReasons.filter fun key _ =>
            key.1 ≠ candidateId || !Text.eqIgnoreAsciiCase key.2 model }, true)
    else (edited, false)

/-- The backoff an observation starts from, given the latest one of its bucket. -/
def nextBackoffMs (previous : Option RateLimitObservation) (nowMs : Nat) : Nat :=
  match previous with
  | none => minBackoffMs
  | some observation =>
    let backoffMs :=
      if observation.retryAtMs ≤ nowMs then saturatingMul u64Max observation.backoffMs 2
      else observation.backoffMs
    max minBackoffMs (min backoffMs maxBackoffMs)

/-- The observations with room for `key`: the oldest one leaves a full table. -/
def evictOldestObservation (limits : BTreeMap (String × String) RateLimitObservation)
    (key : String × String) : BTreeMap (String × String) RateLimitObservation :=
  if maxObservations ≤ limits.size && !limits.contains key then
    match Selection.minBy
        (fun (left right : (String × String) × RateLimitObservation) =>
          compare left.2.observedAtMs right.2.observedAtMs) limits.toList with
    | some (oldest, _) => limits.erase oldest
    | none => limits
  else limits

def observeSharedRateLimit (scheduler : PoolScheduler) (candidateId : String)
    (bucket : BitVec 256) (request : CooldownRequest) (nowMs : Nat) : PoolScheduler :=
  if !scheduler.candidates.contains candidateId ||
      scheduler.retiredCandidates.contains candidateId then
    scheduler
  else
    let recent := scheduler.sharedRateLimits.filter fun _ observation =>
      nowMs - observation.observedAtMs < observationTtlMs
    let model := Text.toAsciiLowercase request.scope
    let shared (key : String × String) (observation : RateLimitObservation) : Bool :=
      key.2 == model && observation.bucket == bucket
    let previous := Selection.maxBy
      (fun left right => compare left.retryAtMs right.retryAtMs)
      ((recent.toList.filter fun entry => shared entry.1 entry.2).map Prod.snd)
    let backoffMs := nextBackoffMs previous nowMs
    let paced := max request.retryAtMs (saturatingAdd u64Max nowMs backoffMs)
    let retryAtMs := (previous.map fun observation => max paced observation.retryAtMs).getD paced
    let key := (candidateId, model)
    let observed := (evictOldestObservation recent key).insert key
      ⟨bucket, nowMs, retryAtMs, backoffMs⟩
    let sharedRateLimits := observed.map fun key observation =>
      if shared key observation then { observation with retryAtMs, backoffMs } else observation
    let members := (observed.toList.filter fun entry => shared entry.1 entry.2).map (·.1.1)
    members.foldl
      (fun scheduler member =>
        (scheduler.setCooldownWithReason member { request with retryAtMs }).1)
      { scheduler with sharedRateLimits }

def resetSharedRateLimitBackoff (scheduler : PoolScheduler) (candidateId model : String)
    (nowMs : Nat) : PoolScheduler :=
  let scope := Text.toAsciiLowercase model
  match scheduler.sharedRateLimits[(candidateId, scope)]?.filter fun observation =>
      observation.retryAtMs ≤ nowMs with
  | none => scheduler
  | some expired =>
    { scheduler with
      sharedRateLimits := scheduler.sharedRateLimits.map fun key observation =>
        if key.2 = scope ∧ observation.bucket = expired.bucket then
          { observation with backoffMs := 0 }
        else observation }

end PoolScheduler

end ZenithRelay.Scheduler
