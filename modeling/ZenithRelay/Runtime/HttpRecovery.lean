import ZenithRelay.Foundations.BTreeMap

/-!
# Recovery of HTTP pools

Which connection pool the next request of a route uses after failures of earlier ones.
A request that was sent is never sent again.
-/

set_option autoImplicit false

namespace ZenithRelay.Runtime

def maxRoutes : Nat := 256

/-- Instants and durations are counted in nanoseconds. -/
def seconds (count : Nat) : Nat := count * 1000000000

def failureWindow : Nat := seconds 120

def http1Cooldown : Nat := seconds 120

def idleTtl : Nat := seconds 600

/-- The candidate and the origin. -/
abbrev RouteKey := String × String

/-- A client of its own; the generation is what `Arc::ptr_eq` compares. -/
structure Pool where
  generation : Nat
  http1Only : Bool
  deriving DecidableEq

structure Observation where
  pool : Pool
  touched : Nat
  lastFailure : Option Nat
  failures : Nat
  http1Until : Option Nat

structure HttpPoolLease where
  key : RouteKey
  pool : Pool
  deriving DecidableEq

/-- The observed routes, the generation of the next pool and the leases that live. -/
structure HttpRecovery where
  observations : BTreeMap RouteKey Observation
  nextGeneration : Nat
  leases : List HttpPoolLease

namespace HttpRecovery

def empty : HttpRecovery := ⟨∅, 0, []⟩

/-- `Arc::strong_count(pool) > 1`. -/
def isHeld (recovery : HttpRecovery) (pool : Pool) : Bool :=
  recovery.leases.any fun lease => lease.pool.generation = pool.generation

/-- The routes that are in use or were not long ago. -/
def retained (recovery : HttpRecovery) (now : Nat) : BTreeMap RouteKey Observation :=
  recovery.observations.filter fun _ entry =>
    recovery.isHeld entry.pool || now - entry.touched < idleTtl

def newObservation (generation now : Nat) : Observation where
  pool := ⟨generation, false⟩
  touched := now
  lastFailure := none
  failures := 0
  http1Until := none

/-- `built` says whether a new client could be built. -/
def selectAt (recovery : HttpRecovery) (key : RouteKey) (built : Bool) (now : Nat) :
    HttpRecovery × Option HttpPoolLease :=
  let observations := recovery.retained now
  if maxRoutes ≤ observations.size && !observations.contains key then
    ({ recovery with observations }, none)
  else
    let entry := observations[key]?.getD (newObservation recovery.nextGeneration now)
    let nextGeneration := if observations.contains key then recovery.nextGeneration
      else recovery.nextGeneration + 1
    if entry.http1Until.any (· ≤ now) then
      if built then
        -- The original pool, possibly broken, is not restored.
        let entry := newObservation nextGeneration now
        let lease : HttpPoolLease := ⟨key, entry.pool⟩
        ({ observations := observations.insert key entry
           nextGeneration := nextGeneration + 1
           leases := lease :: recovery.leases }, some lease)
      else ({ recovery with observations := observations.insert key entry, nextGeneration }, none)
    else
      let lease : HttpPoolLease := ⟨key, entry.pool⟩
      ({ observations := observations.insert key { entry with touched := now }
         nextGeneration
         leases := lease :: recovery.leases }, some lease)

/-- A failure of a connection of the lease's pool. -/
def retire (recovery : HttpRecovery) (lease : HttpPoolLease) (built : Bool) (now : Nat) :
    HttpRecovery :=
  match recovery.observations[lease.key]? with
  | none => recovery
  | some entry =>
    if entry.pool.generation ≠ lease.pool.generation then recovery
    else
      let failures :=
        if entry.lastFailure.any fun last => now - last < failureWindow then
          min 255 (entry.failures + 1)
        else 1
      let http1Only := lease.pool.http1Only || 2 ≤ failures
      if built then
        { recovery with
          observations := recovery.observations.insert lease.key {
            pool := ⟨recovery.nextGeneration, http1Only⟩
            touched := now
            failures
            lastFailure := some now
            http1Until :=
              if http1Only && entry.http1Until.isNone then some (now + http1Cooldown)
              else entry.http1Until }
          nextGeneration := recovery.nextGeneration + 1 }
      else recovery

/-- A response of the lease's pool that came to its end. -/
def completed (recovery : HttpRecovery) (lease : HttpPoolLease) : HttpRecovery :=
  match recovery.observations[lease.key]? with
  | none => recovery
  | some entry =>
    if entry.pool.generation = lease.pool.generation && !lease.pool.http1Only then
      { recovery with
        observations := recovery.observations.insert lease.key
          { entry with failures := 0, lastFailure := none } }
    else recovery

end HttpRecovery

/-! ### Runs -/

inductive HttpOperation where
  | select (key : RouteKey) (built : Bool)
  | retire (lease : HttpPoolLease) (built : Bool)
  | completed (lease : HttpPoolLease)
  | clone (lease : HttpPoolLease)
  | drop (lease : HttpPoolLease)

/-- The lease that an operation is made through. -/
def HttpOperation.lease? : HttpOperation → Option HttpPoolLease
  | .select _ _ => none
  | .retire lease _ => some lease
  | .completed lease => some lease
  | .clone lease => some lease
  | .drop lease => some lease

def HttpRecovery.perform (recovery : HttpRecovery) (now : Nat) : HttpOperation → HttpRecovery
  | .select key built => (recovery.selectAt key built now).1
  | .retire lease built => recovery.retire lease built now
  | .completed lease => recovery.completed lease
  | .clone lease => { recovery with leases := lease :: recovery.leases }
  | .drop lease => { recovery with leases := recovery.leases.erase lease }

/-- What changed the state of a route. -/
inductive Counted where
  | opened (key : RouteKey) (generation : Nat)
  | failure (key : RouteKey) (generation failedAt : Nat)
  | completion (key : RouteKey) (generation : Nat)
  deriving DecidableEq

def Counted.key : Counted → RouteKey
  | .opened key _ => key
  | .failure key _ _ => key
  | .completion key _ => key

def Counted.failedGeneration : Counted → Option Nat
  | .failure _ generation _ => some generation
  | _ => none

/-- The pool that the next request of a route is sent through. -/
def HttpRecovery.current (recovery : HttpRecovery) (key : RouteKey) : Option Pool :=
  recovery.observations[key]?.map (·.pool)

/-- The route gets a pool without a history: it has none, or its time on HTTP/1 is over. -/
def HttpRecovery.opens (recovery : HttpRecovery) (key : RouteKey) (built : Bool) (now : Nat) :
    Bool :=
  match (recovery.retained now)[key]? with
  | none => (recovery.retained now).size < maxRoutes
  | some entry => entry.http1Until.any (· ≤ now) && built

/-- What an operation counts. -/
def HttpRecovery.counted (recovery : HttpRecovery) (now : Nat) : HttpOperation → List Counted
  | .select key built =>
    if recovery.opens key built now then [.opened key recovery.nextGeneration] else []
  | .retire lease built =>
    if built && (recovery.current lease.key).any (·.generation = lease.pool.generation) then
      [.failure lease.key lease.pool.generation now]
    else []
  | .completed lease =>
    if (recovery.current lease.key).any (·.generation = lease.pool.generation) &&
        !lease.pool.http1Only then
      [.completion lease.key lease.pool.generation]
    else []
  | .clone _ | .drop _ => []

/-- The pools at a time, with what was counted so far, newest first. -/
structure HttpRun where
  recovery : HttpRecovery
  now : Nat
  log : List Counted

namespace HttpRun

def start : HttpRun := ⟨.empty, 0, []⟩

def next (run : HttpRun) (now : Nat) (operation : HttpOperation) : HttpRun where
  recovery := run.recovery.perform now operation
  now
  log := run.recovery.counted now operation ++ run.log

/-- Time does not go back, and only leases that live are used. -/
inductive Step : HttpRun → HttpRun → Prop
  | perform (run : HttpRun) {now : Nat} {operation : HttpOperation} (later : run.now ≤ now)
      (held : ∀ lease, operation.lease? = some lease → lease ∈ run.recovery.leases) :
      Step run (run.next now operation)

def Reachable (run : HttpRun) : Prop := Relation.ReflTransGen Step start run

end HttpRun

end ZenithRelay.Runtime
