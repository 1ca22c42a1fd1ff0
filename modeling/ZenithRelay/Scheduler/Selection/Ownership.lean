import ZenithRelay.Scheduler.Selection.Projection

/-!
# Ownership

Bounded response ownership and optional prompt-cache affinity.
-/

set_option autoImplicit false

namespace ZenithRelay.Scheduler.PoolScheduler

open Rotation

def bindResponseAffinity (scheduler : PoolScheduler) (key candidateId : String) (nowMs : Nat) :
    PoolScheduler × Outcome Bool :=
  if !scheduler.candidates.contains candidateId then (scheduler, .returned false)
  else
    let (responseAffinity, outcome) := scheduler.responseAffinity.bind key candidateId nowMs
    ({ scheduler with responseAffinity }, outcome.map fun () => true)

def bindPromptAffinity (scheduler : PoolScheduler) (key candidateId : String) (nowMs : Nat) :
    PoolScheduler × Outcome Bool :=
  if scheduler.retired || !scheduler.candidates.contains candidateId then
    (scheduler, .returned false)
  else
    let (promptAffinity, outcome) := scheduler.promptAffinity.bind key candidateId nowMs
    ({ scheduler with promptAffinity }, outcome.map fun () => true)

/-- Keeps the durable owner through temporary spillovers, which are remembered;
only a material resource lead moves it. -/
def bindPromptAffinitySticky (scheduler : PoolScheduler) (key candidateId : String)
    (nowMs : Nat) : PoolScheduler × Outcome Bool :=
  if scheduler.retired || !scheduler.candidates.contains candidateId then
    (scheduler, .returned false)
  else
    let (pruned, owner) := scheduler.promptAffinity.get key nowMs
    let moveOwner := owner.any fun ownerId =>
      ownerId != candidateId && scheduler.rotation.hasMaterialResourceLead candidateId ownerId nowMs
    if moveOwner then
      let (promptAffinity, outcome) := pruned.bind key candidateId nowMs
      ({ scheduler with promptAffinity }, outcome.map fun () => true)
    else
      match pruned.bindIfUnboundOrSame key candidateId nowMs with
      | (promptAffinity, .returned false) =>
        ({ scheduler with
            promptAffinity := promptAffinity.rememberAlternative key candidateId nowMs },
          .returned false)
      | (promptAffinity, outcome) => ({ scheduler with promptAffinity }, outcome)

def restoreResponseAffinity (scheduler : PoolScheduler) (key candidateId : String)
    (expiresAtMs nowMs : Nat) : PoolScheduler × Outcome Bool :=
  if !scheduler.candidates.contains candidateId || decide (expiresAtMs ≤ nowMs) then
    (scheduler, .returned false)
  else
    let (responseAffinity, outcome) :=
      scheduler.responseAffinity.restore key candidateId expiresAtMs nowMs
    ({ scheduler with responseAffinity }, outcome.map fun () => true)

def restorePromptAffinity (scheduler : PoolScheduler) (key candidateId : String)
    (expiresAtMs nowMs : Nat) : PoolScheduler × Outcome Bool :=
  if scheduler.retired || !scheduler.candidates.contains candidateId ||
      decide (expiresAtMs ≤ nowMs) then
    (scheduler, .returned false)
  else
    let (pruned, bound) := scheduler.promptAffinity.contains key nowMs
    if bound then ({ scheduler with promptAffinity := pruned }, .returned false)
    else
      let (promptAffinity, outcome) := pruned.restore key candidateId expiresAtMs nowMs
      ({ scheduler with promptAffinity }, outcome.map fun () => true)

def hasResponseAffinity (scheduler : PoolScheduler) (key : String) (nowMs : Nat) :
    PoolScheduler × Bool :=
  let (responseAffinity, bound) := scheduler.responseAffinity.contains key nowMs
  ({ scheduler with responseAffinity }, bound)

def responseAffinityCandidate (scheduler : PoolScheduler) (key : String) (nowMs : Nat) :
    PoolScheduler × Option String :=
  let (responseAffinity, owner) := scheduler.responseAffinity.get key nowMs
  ({ scheduler with responseAffinity }, owner)

def responseAffinityBinding (scheduler : PoolScheduler) (key : String) (nowMs : Nat) :
    PoolScheduler × Option (String × Nat) :=
  let (responseAffinity, binding) := scheduler.responseAffinity.getWithRevision key nowMs
  ({ scheduler with responseAffinity }, binding)

def hasPromptAffinity (scheduler : PoolScheduler) (key : String) (nowMs : Nat) :
    PoolScheduler × Bool :=
  let (promptAffinity, bound) := scheduler.promptAffinity.contains key nowMs
  ({ scheduler with promptAffinity }, bound)

def promptAffinitySnapshot (scheduler : PoolScheduler) (key : String) (nowMs : Nat) :
    Option (String × Nat) :=
  scheduler.promptAffinity.getWithExpiry key nowMs

def invalidateResponseAffinity (scheduler : PoolScheduler) (key : String) :
    PoolScheduler × Bool :=
  let (responseAffinity, removed) := scheduler.responseAffinity.invalidate key
  ({ scheduler with responseAffinity }, removed)

def invalidatePromptAffinity (scheduler : PoolScheduler) (key : String) : PoolScheduler × Bool :=
  if scheduler.retired then (scheduler, false)
  else
    let (promptAffinity, removed) := scheduler.promptAffinity.invalidate key
    ({ scheduler with promptAffinity }, removed)

def invalidatePromptAffinityForCandidate (scheduler : PoolScheduler) (key candidateId : String) :
    PoolScheduler × Bool :=
  if scheduler.retired then (scheduler, false)
  else
    let (promptAffinity, removed) := scheduler.promptAffinity.invalidateIfOwner key candidateId
    ({ scheduler with promptAffinity }, removed)

end ZenithRelay.Scheduler.PoolScheduler
