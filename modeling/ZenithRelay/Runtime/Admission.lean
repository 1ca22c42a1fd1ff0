import ZenithRelay.Foundations.TurnOrder
import ZenithRelay.Scheduler.Rotation.Budget

/-!
# The admission queue

Waiters in arrival order and the rotation of the principals that own them. The
queue lock makes each operation one step; what the scheduler, the budgets and
the clock answer under the lock is an argument of the step.
-/

set_option autoImplicit false

namespace ZenithRelay.Runtime

open ZenithRelay.Scheduler.Rotation

inductive RequestWaitKind where
  | capacity
  | recovery (delayMs : Nat)
  | poolEvent
  deriving DecidableEq, Repr

/-- An admission request with the sizes that its waiter retains. -/
structure AdmissionRequest where
  keyId : String
  requestId : RequestId
  retainedInputBytes : Nat
  modelCapacity : Nat
  triedCapacities : List Nat
  responseAffinityCapacity : Option Nat
  promptAffinityCapacity : Option Nat
  deriving DecidableEq, Repr

/-- Envelope estimate of the input plus the bounded queue metadata. -/
def AdmissionRequest.retainedBytes (request : AdmissionRequest) : Nat :=
  let tried := request.triedCapacities.foldl (saturatingAdd usizeMax) 4096
  let model := saturatingAdd usizeMax tried request.modelCapacity
  let response := saturatingAdd usizeMax model (request.responseAffinityCapacity.getD 0)
  let metadata := saturatingAdd usizeMax response (request.promptAffinityCapacity.getD 0)
  saturatingAdd usizeMax request.retainedInputBytes metadata

/-- Byte limits are machine words, so a sum within them never saturates. -/
structure AdmissionLimits where
  requests : Nat
  principalRequests : Nat
  bytes : Nat
  principalBytes : Nat
  bytes_fit : bytes ≤ usizeMax
  principalBytes_fit : principalBytes ≤ usizeMax

/-- Waiter counts stay bounded; body size is no reason to refuse a request. -/
def AdmissionLimits.standard : AdmissionLimits where
  requests := 1024
  principalRequests := 256
  bytes := usizeMax
  principalBytes := usizeMax
  bytes_fit := le_rfl
  principalBytes_fit := le_rfl

structure Waiter where
  request : AdmissionRequest
  bytes : Nat
  /-- Waits for capacity and takes turns; a recovery waiter only holds its place. -/
  selecting : Bool
  deriving DecidableEq, Repr

structure AdmissionQueue where
  limits : AdmissionLimits
  waiters : List Waiter
  principals : List String
  retainedBytes : Nat

namespace AdmissionQueue

def empty (limits : AdmissionLimits) : AdmissionQueue := ⟨limits, [], [], 0⟩

/-- Waiter count and bytes of the request's principal, none when the request
already waits. -/
def principalShare (waiters : List Waiter) (request : AdmissionRequest) : Option (Nat × Nat) :=
  waiters.foldlM (fun (share : Nat × Nat) waiter =>
    if waiter.request.requestId = request.requestId then none
    else if waiter.request.keyId = request.keyId then
      some (share.1 + 1, saturatingAdd usizeMax share.2 waiter.bytes)
    else some share) (0, 0)

/-- `beginsWait` is the answer of the budget's `begin_queue_wait`, asked last. -/
def insert (queue : AdmissionQueue) (request : AdmissionRequest) (kind : RequestWaitKind)
    (beginsWait : Bool) : AdmissionQueue × Bool :=
  let bytes := request.retainedBytes
  match principalShare queue.waiters request with
  | none => (queue, false)
  | some (principalCount, principalBytes) =>
    if queue.limits.requests ≤ queue.waiters.length
        ∨ queue.limits.principalRequests ≤ principalCount
        ∨ queue.limits.bytes - queue.retainedBytes < bytes
        ∨ queue.limits.principalBytes - principalBytes < bytes
        ∨ beginsWait = false then
      (queue, false)
    else
      ({ queue with
          principals :=
            if request.keyId ∈ queue.principals then queue.principals
            else queue.principals ++ [request.keyId]
          retainedBytes := saturatingAdd usizeMax queue.retainedBytes bytes
          waiters := queue.waiters ++ [⟨request, bytes, kind = .capacity⟩] }, true)

/-- `ready` answers for a waiter: its budget can dispatch, its queue deadline is
ahead and the scheduler finds it a ready route. -/
def turn (queue : AdmissionQueue) (ready : AdmissionRequest → Bool) : Option RequestId :=
  queue.principals.findSome? fun principal =>
    ((queue.waiters.filter fun waiter =>
        waiter.selecting && waiter.request.keyId == principal).find?
      fun waiter => ready waiter.request).map (·.request.requestId)

def served (queue : AdmissionQueue) (principal : String) : AdmissionQueue :=
  if principal ∈ queue.principals then
    { queue with principals := TurnOrder.sendBack queue.principals principal }
  else queue

def remove (queue : AdmissionQueue) (requestId : RequestId) : AdmissionQueue :=
  match queue.waiters.find? (·.request.requestId == requestId) with
  | none => queue
  | some waiter =>
    let waiters := queue.waiters.eraseP (·.request.requestId == requestId)
    { queue with
      waiters
      retainedBytes := queue.retainedBytes - waiter.bytes
      principals :=
        if waiters.any (·.request.keyId == waiter.request.keyId) then queue.principals
        else queue.principals.filter (· != waiter.request.keyId) }

end AdmissionQueue

/-- What the scheduler and the budgets answer during one attempt: `ready` for the
waiters the turn scans, the other answers for the attempting request. -/
structure AttemptAnswers where
  ready : AdmissionRequest → Bool
  allCapacityReserved : Bool
  capacityBlocked : Bool
  admissionReady : Bool
  /-- `try_reserve_admission`: whether it reserved, and whether it found a busy route. -/
  reservation : Bool × Bool
  beginsWait : Bool

inductive AttemptOutcome where
  | reserved
  | refused
  | waiting
  deriving DecidableEq, Repr

namespace AdmissionQueue

/-- With every capacity occupied no queued waiter can have a ready turn, so the
incoming route alone is checked. -/
def saturatedBusy (queue : AdmissionQueue) (answers : AttemptAnswers) : Option Bool :=
  if queue.waiters = [] then none
  else if answers.allCapacityReserved then some answers.capacityBlocked
  else none

/-- Whether the attempt reserved, and whether its route is busy. -/
def tryAdmission (queue : AdmissionQueue) (request : AdmissionRequest)
    (answers : AttemptAnswers) : Bool × Bool :=
  match queue.saturatedBusy answers with
  | some busy => (false, busy)
  | none =>
    if (queue.turn answers.ready).all (· == request.requestId) then answers.reservation
    else (false, answers.admissionReady || answers.capacityBlocked)

/-- The locked block of `GatewayRuntime::admit`. `registered` tells that this driver already
holds a waiter. -/
def admitRequest (queue : AdmissionQueue) (request : AdmissionRequest) (registered : Bool)
    (answers : AttemptAnswers) : AdmissionQueue × AttemptOutcome :=
  let (reserved, busy) := queue.tryAdmission request answers
  if reserved then (queue.served request.keyId, .reserved)
  else if !busy then (queue, .refused)
  else if registered then (queue, .waiting)
  else
    let (queue, accepted) := queue.insert request .capacity answers.beginsWait
    (queue, if accepted then .waiting else .refused)

end AdmissionQueue

/-- A step under the queue lock. `admitRequest` calls `served` in its own step; alone it
stands for a rotation without an admission. -/
inductive AdmissionStep where
  | insert (request : AdmissionRequest) (kind : RequestWaitKind) (beginsWait : Bool)
  | admitRequest (request : AdmissionRequest) (registered : Bool) (answers : AttemptAnswers)
  | served (principal : String)
  | remove (requestId : RequestId)

namespace AdmissionStep

def apply (queue : AdmissionQueue) : AdmissionStep → AdmissionQueue
  | .insert request kind beginsWait => (queue.insert request kind beginsWait).1
  | .admitRequest request registered answers => (queue.admitRequest request registered answers).1
  | .served principal => queue.served principal
  | .remove requestId => queue.remove requestId

/-- The request that the step admits. -/
def admitted (queue : AdmissionQueue) : AdmissionStep → Option AdmissionRequest
  | .admitRequest request registered answers =>
    if (queue.admitRequest request registered answers).2 = .reserved then some request else none
  | _ => none

end AdmissionStep

end ZenithRelay.Runtime
