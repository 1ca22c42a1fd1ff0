import ZenithRelay.Foundations.TaskPool
import ZenithRelay.Scheduler.Selection.Operation

/-!
# Prompt affinity

Prompt ownership in the memory of each runtime and in the durable store that the
runtimes share. A key's decision in memory and its durable write are ordered by a
lock, one of a fixed number of stripes; the scheduler is never held during store I/O.
-/

set_option autoImplicit false

namespace ZenithRelay.Runtime

open Scheduler

/-- The length of `PROMPT_AFFINITY_LOCKS`. -/
def promptAffinityLocks : Nat := 64

structure ResponseAffinityBinding where
  key : String
  candidateId : String
  expiresAtMs : Nat
  deriving DecidableEq, Repr

/-- What prompt affinity uses of a gateway runtime. -/
structure GatewayRuntime where
  scheduler : PoolScheduler
  legacySourceCandidateIds : BTreeMap String (Option String)

abbrev RuntimeId := Nat

/-- The runtimes over one durable store, and the task that holds each stripe. -/
structure SharedAffinity where
  runtimes : RuntimeId → GatewayRuntime
  store : BTreeMap String ResponseAffinityBinding
  locks : Fin promptAffinityLocks → Option TaskId

/-- One section under the lock of a scheduler, one call of the store, or the wait for
the stripe of a key. -/
inductive AffinityAction where
  | schedule (runtime : RuntimeId) (operation : SchedulerOperation)
  | lockPromptAffinity (key : String)
  | hasPromptAffinity (runtime : RuntimeId) (key : String) (nowMs : Nat)
  | bindSticky (runtime : RuntimeId) (key candidateId : String) (nowMs : Nat)
  | restore (runtime : RuntimeId) (key : String) (binding : ResponseAffinityBinding) (nowMs : Nat)
  | invalidateForCandidate (runtime : RuntimeId) (key candidateId : String)
  | find (key : String) (nowMs : Nat)
  | upsert (binding : ResponseAffinityBinding)
  | delete (key : String)

/-- `bindSticky` answers with the binding to write, if it bound. -/
@[reducible] def AffinityAction.Response : AffinityAction → Type
  | .schedule .. | .lockPromptAffinity _ => Unit
  | .hasPromptAffinity .. | .invalidateForCandidate .. => Bool
  | .bindSticky .. => Outcome (Option (String × Nat))
  | .restore .. => Outcome Bool
  | .find .. => Except String (Option ResponseAffinityBinding)
  | .upsert _ | .delete _ => Except String Unit

/-- The error of the next store call, if it fails. -/
abbrev StoreOracle := Option String

namespace GatewayRuntime

/-- The owner of a stored binding among the candidates of this runtime; ids of an
older layout are translated. -/
def restoredOwner (runtime : GatewayRuntime) (candidateId : String) : Option String :=
  (runtime.scheduler.candidates[candidateId]?.map (·.id)).or
    (runtime.legacySourceCandidateIds[candidateId]?.join)

/-- The scheduler section of `bind_prompt_affinity`. -/
def bindSticky (runtime : GatewayRuntime) (key candidateId : String) (nowMs : Nat) :
    GatewayRuntime × Outcome (Option (String × Nat)) :=
  let (scheduler, bound) := runtime.scheduler.bindPromptAffinitySticky key candidateId nowMs
  ({ runtime with scheduler },
    bound.map fun bound => if bound then scheduler.promptAffinitySnapshot key nowMs else none)

/-- The last scheduler section of `restore_prompt_affinity_from_store`. -/
def restore (runtime : GatewayRuntime) (key : String) (binding : ResponseAffinityBinding)
    (nowMs : Nat) : GatewayRuntime × Outcome Bool :=
  match runtime.restoredOwner binding.candidateId with
  | some owner =>
    let (scheduler, restored) :=
      runtime.scheduler.restorePromptAffinity key owner binding.expiresAtMs nowMs
    ({ runtime with scheduler }, restored)
  | none => (runtime, .returned false)

end GatewayRuntime

namespace SharedAffinity

def setRuntime (shared : SharedAffinity) (id : RuntimeId) (runtime : GatewayRuntime) :
    SharedAffinity :=
  { shared with runtimes := Function.update shared.runtimes id runtime }

/-- What a runtime remembers of a key at some time. -/
def memory (shared : SharedAffinity) (id : RuntimeId) (key : String) (nowMs : Nat) :
    Option (String × Nat) :=
  (shared.runtimes id).scheduler.promptAffinitySnapshot key nowMs

section

variable (stripe : String → Fin promptAffinityLocks)

def execute (shared : SharedAffinity) (task : TaskId) :
    (action : AffinityAction) → StoreOracle → Option (SharedAffinity × action.Response)
  | .schedule id operation, _ =>
    let runtime := shared.runtimes id
    some (shared.setRuntime id { runtime with scheduler := runtime.scheduler.apply operation }, ())
  | .lockPromptAffinity key, _ =>
    -- A stripe that a panic poisoned is taken all the same.
    match shared.locks (stripe key) with
    | none =>
      some ({ shared with locks := Function.update shared.locks (stripe key) (some task) }, ())
    | some _ => none
  | .hasPromptAffinity id key nowMs, _ =>
    let runtime := shared.runtimes id
    let (scheduler, bound) := runtime.scheduler.hasPromptAffinity key nowMs
    some (shared.setRuntime id { runtime with scheduler }, bound)
  | .bindSticky id key candidateId nowMs, _ =>
    let (runtime, bound) := (shared.runtimes id).bindSticky key candidateId nowMs
    some (shared.setRuntime id runtime, bound)
  | .restore id key binding nowMs, _ =>
    let (runtime, restored) := (shared.runtimes id).restore key binding nowMs
    some (shared.setRuntime id runtime, restored)
  | .invalidateForCandidate id key candidateId, _ =>
    let runtime := shared.runtimes id
    let (scheduler, invalidated) :=
      runtime.scheduler.invalidatePromptAffinityForCandidate key candidateId
    some (shared.setRuntime id { runtime with scheduler }, invalidated)
  | .find _ _, some error => some (shared, .error error)
  | .find key nowMs, none =>
    some (shared, .ok (shared.store[key]?.filter fun binding => nowMs < binding.expiresAtMs))
  | .upsert _, some error => some (shared, .error error)
  | .upsert binding, none =>
    some ({ shared with store := shared.store.insert binding.key binding }, .ok ())
  | .delete _, some error => some (shared, .error error)
  | .delete key, none => some ({ shared with store := shared.store.erase key }, .ok ())

variable {stripe} {shared : SharedAffinity} {task : TaskId} {id : RuntimeId} {key : String}
  {nowMs : Nat} (oracle : StoreOracle)

theorem execute_bindSticky {candidateId : String} :
    shared.execute stripe task (.bindSticky id key candidateId nowMs) oracle =
      some (shared.setRuntime id ((shared.runtimes id).bindSticky key candidateId nowMs).1,
        ((shared.runtimes id).bindSticky key candidateId nowMs).2) := rfl

theorem execute_restore {binding : ResponseAffinityBinding} :
    shared.execute stripe task (.restore id key binding nowMs) oracle =
      some (shared.setRuntime id ((shared.runtimes id).restore key binding nowMs).1,
        ((shared.runtimes id).restore key binding nowMs).2) := rfl

theorem execute_invalidateForCandidate {candidateId : String} :
    shared.execute stripe task (.invalidateForCandidate id key candidateId) oracle =
      some (shared.setRuntime id { shared.runtimes id with
          scheduler := ((shared.runtimes id).scheduler.invalidatePromptAffinityForCandidate key
            candidateId).1 },
        ((shared.runtimes id).scheduler.invalidatePromptAffinityForCandidate key candidateId).2) :=
  rfl

/-- What a runtime remembers after a section of its scheduler. -/
theorem setRuntime_memory (shared : SharedAffinity) (id : RuntimeId) (runtime : GatewayRuntime)
    (key : String) (nowMs : Nat) :
    (shared.setRuntime id runtime).memory id key nowMs =
      runtime.scheduler.promptAffinitySnapshot key nowMs := by
  unfold memory setRuntime
  dsimp only
  rw [Function.update_self]

variable (stripe)

/-- The guard of a stripe is dropped when its function returns. -/
def leave (shared : SharedAffinity) (task : TaskId) : SharedAffinity :=
  { shared with locks := fun lock => (shared.locks lock).filter (· ≠ task) }

def machine : TaskMachine AffinityAction.Response SharedAffinity StoreOracle where
  execute := execute stripe
  awaits := fun _ => false
  leave := leave

end

end SharedAffinity

/-- What a call did: nothing to the durable binding of its key, or a decision in
memory whose durable write worked or failed. Only `invalidate_prompt_affinity` returns
a part of it. -/
inductive AffinityResult where
  | undecided
  | saved (key : String) (change : Option ResponseAffinityBinding)
  | unsaved (key : String) (change : Option ResponseAffinityBinding)
  deriving DecidableEq, Repr

abbrev AffinityProgram := Resumption AffinityAction.Response AffinityResult

/-- The durable write of a decision. -/
def persistDecision (key : String) : Option ResponseAffinityBinding → AffinityProgram
  | some binding =>
    .perform (.upsert binding) fun
      | .ok () => .done (.saved key (some binding))
      | .error _ => .done (.unsaved key (some binding))
  | none =>
    .perform (.delete key) fun
      | .ok () => .done (.saved key none)
      | .error _ => .done (.unsaved key none)

def bindPromptAffinity (runtime : RuntimeId) (key : Option String) (candidateId : String)
    (nowMs : Nat) : AffinityProgram :=
  match key with
  | none => .done .undecided
  | some key =>
    .perform (.lockPromptAffinity key) fun _ =>
      .perform (.bindSticky runtime key candidateId nowMs) fun
        | .returned (some (candidateId, expiresAtMs)) =>
          persistDecision key (some ⟨key, candidateId, expiresAtMs⟩)
        | .returned none | .panicked _ => .done .undecided

def restorePromptAffinityFromStore (runtime : RuntimeId) (key : String) (nowMs : Nat) :
    AffinityProgram :=
  -- Warm memory needs neither disk I/O nor a wait for a pending write.
  .perform (.hasPromptAffinity runtime key nowMs) fun
    | true => .done .undecided
    | false =>
      .perform (.lockPromptAffinity key) fun _ =>
        .perform (.hasPromptAffinity runtime key nowMs) fun
          | true => .done .undecided
          | false =>
            .perform (.find key nowMs) fun
              | .ok (some binding) =>
                .perform (.restore runtime key binding nowMs) fun _ => .done .undecided
              | .ok none | .error _ => .done .undecided

def invalidatePromptAffinity (runtime : RuntimeId) (key : Option String) (candidateId : String) :
    AffinityProgram :=
  match key with
  | none => .done .undecided
  | some key =>
    .perform (.lockPromptAffinity key) fun _ =>
      -- A spillover rejection or an old owner's late failure says nothing about the
      -- currently warmed owner's provider cache.
      .perform (.invalidateForCandidate runtime key candidateId) fun
        | true => persistDecision key none
        | false => .done .undecided

/-- A call on some runtime; `other` is any other work of its scheduler. -/
inductive AffinityOperation where
  | other (runtime : RuntimeId) (operation : SchedulerOperation)
  | bind (runtime : RuntimeId) (key : Option String) (candidateId : String) (nowMs : Nat)
  | restore (runtime : RuntimeId) (key : String) (nowMs : Nat)
  | invalidate (runtime : RuntimeId) (key : Option String) (candidateId : String)

def AffinityOperation.program : AffinityOperation → AffinityProgram
  | .other runtime operation =>
    .perform (.schedule runtime operation) fun _ => .done .undecided
  | .bind runtime key candidateId nowMs => bindPromptAffinity runtime key candidateId nowMs
  | .restore runtime key nowMs => restorePromptAffinityFromStore runtime key nowMs
  | .invalidate runtime key candidateId => invalidatePromptAffinity runtime key candidateId

abbrev AffinityPool := TaskPool AffinityAction.Response SharedAffinity AffinityResult

abbrev AffinityEvent := TaskEvent AffinityOperation StoreOracle

/-- The pool after a list of events, over any assignment of keys to stripes. -/
def AffinityPool.run (stripe : String → Fin promptAffinityLocks) (pool : AffinityPool)
    (events : List AffinityEvent) : AffinityPool :=
  TaskPool.run (SharedAffinity.machine stripe) AffinityOperation.program pool events

end ZenithRelay.Runtime
