import ZenithRelay.Runtime.SessionState.AffinityProperties
import ZenithRelay.Scheduler.Selection.ResponseOwnershipProperties

/-!
# Decisions and their durable writes

Runs of any calls over one store. A call that decides in memory ends with its decision
in the store unless the write failed; a delete lasts until the key is bound again; and
a restore hands out nothing but the durable binding as it is at that time.
-/

set_option autoImplicit false

namespace ZenithRelay.Runtime

open Scheduler

namespace AffinityPool

/-- The call is about to decide, in the memory of `runtime`, that the durable binding of
`key` becomes `change`. -/
inductive Decides (pool : AffinityPool) (id : TaskId) (runtime : RuntimeId) (key : String)
    (nowMs : Nat) : Option ResponseAffinityBinding → Prop
  | bind {candidateId owner : String} {expiresAtMs : Nat} :
      pool.nextAction id = some (.bindSticky runtime key candidateId nowMs) →
      ((pool.shared.runtimes runtime).bindSticky key candidateId nowMs).2 =
        .returned (some (owner, expiresAtMs)) →
      Decides pool id runtime key nowMs (some ⟨key, owner, expiresAtMs⟩)
  | invalidate {candidateId : String} :
      pool.nextAction id = some (.invalidateForCandidate runtime key candidateId) →
      ((pool.shared.runtimes runtime).scheduler.invalidatePromptAffinityForCandidate key
        candidateId).2 = true →
      Decides pool id runtime key nowMs none

variable (stripe : String → Fin promptAffinityLocks)

/-- The pool after a call has performed its next action. -/
abbrev resume (pool : AffinityPool) (id : TaskId) (oracle : StoreOracle) : AffinityPool :=
  TaskPool.step (SharedAffinity.machine stripe) AffinityOperation.program pool (.resume id oracle)

/-- A call that has not returned when the event is over. -/
def Stays (id : TaskId) (pool : AffinityPool) (event : AffinityEvent) : Prop :=
  (TaskPool.step (SharedAffinity.machine stripe) AffinityOperation.program pool event).task id ≠
    none

/-- The event is no decision to bind the key. -/
def LeavesUnbound (key : String) (pool : AffinityPool) (event : AffinityEvent) : Prop :=
  ∀ id oracle runtime nowMs binding, event = .resume id oracle →
    ¬pool.Decides id runtime key nowMs (some binding)

/-- Every event of the list, in the state it finds. -/
abbrev Along (allowed : AffinityPool → AffinityEvent → Prop) (pool : AffinityPool)
    (events : List AffinityEvent) : Prop :=
  Execution.Along (TaskPool.step (SharedAffinity.machine stripe) AffinityOperation.program) allowed
    pool events

end AffinityPool

/-- What memory shows of a key whose durable binding is the given one. -/
def ResponseAffinityBinding.shown (binding : ResponseAffinityBinding) : String × Nat :=
  (binding.candidateId, binding.expiresAtMs)

/-- The durable binding names the candidate, or an id that the runtime translates to it. -/
def ResponseAffinityBinding.OwnedBy (binding : ResponseAffinityBinding) (runtime : GatewayRuntime)
    (candidateId : String) : Prop :=
  binding.candidateId = candidateId ∨ runtime.restoredOwner binding.candidateId = some candidateId

instance decidableOwnedBy (binding : ResponseAffinityBinding) (runtime : GatewayRuntime)
    (candidateId : String) : Decidable (binding.OwnedBy runtime candidateId) :=
  inferInstanceAs (Decidable (_ ∨ _))

/-- The runtime holds the key in memory for the candidate, and still decides. -/
def GatewayRuntime.Remembers (runtime : GatewayRuntime) (key candidateId : String) : Prop :=
  runtime.scheduler.retired = false ∧
    runtime.scheduler.promptAffinity.owner key = some candidateId

instance decidableRemembers (runtime : GatewayRuntime) (key candidateId : String) :
    Decidable (runtime.Remembers key candidateId) :=
  inferInstanceAs (Decidable (_ ∧ _))

/-- A failure is reported to a runtime that agrees with the store on whether the reported
candidate owns the key, if the key has a durable binding. -/
def AffinityPool.OwnersAgree (pool : AffinityPool) : AffinityEvent → Prop
  | .resume id _ =>
    match pool.nextAction id with
    | some (.invalidateForCandidate runtime key candidateId) =>
      ∀ binding ∈ pool.shared.store[key]?,
        ((pool.shared.runtimes runtime).Remembers key candidateId ↔
          binding.OwnedBy (pool.shared.runtimes runtime) candidateId)
    | _ => True
  | _ => True

instance decidableOwnersAgree (pool : AffinityPool) :
    ∀ event : AffinityEvent, Decidable (pool.OwnersAgree event)
  | .resume id _ => by
    unfold AffinityPool.OwnersAgree
    dsimp only
    split <;> infer_instance
  | .spawn .. | .abandon _ => inferInstanceAs (Decidable True)

/-- How the memories and the store go together, from a pool on. -/
structure WrittenThrough (stripe : String → Fin promptAffinityLocks) (pool : AffinityPool) :
    Prop where
  /-- A decision is what memory then shows, and what the store holds when the call
  returns, unless its write failed. -/
  decided : ∀ id runtime key nowMs change oracle, pool.Decides id runtime key nowMs change →
    (pool.resume stripe id oracle).shared.memory runtime key nowMs =
        change.map ResponseAffinityBinding.shown ∧
      ∀ events, AffinityPool.Along stripe (AffinityPool.Stays stripe id)
          (pool.resume stripe id oracle) events →
        ∀ result, ((pool.resume stripe id oracle).run stripe events).task id =
            some (.done result) →
          result = .unsaved key change ∨
            (result = .saved key change ∧
              ((pool.resume stripe id oracle).run stripe events).shared.store[key]? = change)
  /-- A restore shows the durable binding, under the id its owner has in the runtime. -/
  restored : ∀ id runtime key binding nowMs oracle,
    pool.nextAction id = some (.restore runtime key binding nowMs) →
      pool.shared.store[key]? = some binding ∧
        (pool.resume stripe id oracle).shared.store = pool.shared.store ∧
        (((pool.shared.runtimes runtime).restore key binding nowMs).2 = .returned true →
          ∃ owner, (pool.shared.runtimes runtime).restoredOwner binding.candidateId = some owner ∧
            ∀ shown, (pool.resume stripe id oracle).shared.memory runtime key nowMs = some shown →
              shown = (owner, binding.expiresAtMs))
  /-- What was deleted stays deleted, and no restore finds it, until the key is bound. -/
  forgotten : ∀ id key, pool.task id = some (.done (.saved key none)) → ∀ events,
    AffinityPool.Along stripe (AffinityPool.LeavesUnbound key) pool events →
      (pool.run stripe events).shared.store[key]? = none ∧
        ∀ other runtime binding nowMs,
          (pool.run stripe events).nextAction other ≠ some (.restore runtime key binding nowMs)
  /-- The late failure of a candidate that does not own the key changes no binding. -/
  otherOwner : ∀ id runtime key candidateId oracle,
    pool.nextAction id = some (.invalidateForCandidate runtime key candidateId) →
    (pool.shared.runtimes runtime).scheduler.promptAffinity.owner key ≠ some candidateId →
      (pool.resume stripe id oracle).shared.store = pool.shared.store ∧
        (∀ shown nowMs, (pool.resume stripe id oracle).shared.memory runtime shown nowMs =
          pool.shared.memory runtime shown nowMs) ∧
        (pool.resume stripe id oracle).task id = some (.done .undecided)

/-- Whose failure forgets a durable binding. -/
structure OwnersForgotten (stripe : String → Fin promptAffinityLocks) (pool : AffinityPool)
    (event : AffinityEvent) : Prop where
  /-- The failure of the durable owner is a decision to delete the binding. -/
  owner : ∀ id oracle runtime key candidateId binding, event = .resume id oracle →
    pool.nextAction id = some (.invalidateForCandidate runtime key candidateId) →
    pool.shared.store[key]? = some binding →
    binding.OwnedBy (pool.shared.runtimes runtime) candidateId →
      ∀ nowMs, pool.Decides id runtime key nowMs none
  /-- The late failure of anybody else changes neither memory nor the store. -/
  others : ∀ id oracle runtime key candidateId binding, event = .resume id oracle →
    pool.nextAction id = some (.invalidateForCandidate runtime key candidateId) →
    pool.shared.store[key]? = some binding →
    ¬binding.OwnedBy (pool.shared.runtimes runtime) candidateId →
      (pool.resume stripe id oracle).shared.store = pool.shared.store ∧
        (∀ shown nowMs, (pool.resume stripe id oracle).shared.memory runtime shown nowMs =
          pool.shared.memory runtime shown nowMs) ∧
        (pool.resume stripe id oracle).task id = some (.done .undecided)

/-! ## One section of a scheduler -/

namespace GatewayRuntime

variable {runtime : GatewayRuntime} {key : String} {nowMs : Nat}

private theorem bindSticky_shown {candidateId owner : String} {expiresAtMs : Nat}
    (bound : (runtime.bindSticky key candidateId nowMs).2 = .returned (some (owner, expiresAtMs))) :
    (runtime.bindSticky key candidateId nowMs).1.scheduler.promptAffinitySnapshot key nowMs =
      some (owner, expiresAtMs) := by
  unfold bindSticky at bound ⊢
  dsimp only at bound ⊢
  cases outcome : (runtime.scheduler.bindPromptAffinitySticky key candidateId nowMs).2 with
  | panicked message => simp [outcome, Outcome.map] at bound
  | returned taken =>
      simp only [outcome, Outcome.map, Outcome.returned.injEq] at bound
      cases taken with
      | true => simpa using bound
      | false => simp at bound

private theorem restore_shown {binding : ResponseAffinityBinding}
    (restored : (runtime.restore key binding nowMs).2 = .returned true) :
    ∃ owner, runtime.restoredOwner binding.candidateId = some owner ∧
      ∀ shown, (runtime.restore key binding nowMs).1.scheduler.promptAffinitySnapshot key nowMs =
        some shown → shown = (owner, binding.expiresAtMs) := by
  unfold restore at restored ⊢
  cases found : runtime.restoredOwner binding.candidateId with
  | none => simp [found] at restored
  | some owner =>
      refine ⟨owner, rfl, fun shown seen => ?_⟩
      simp only [found] at restored seen
      unfold PoolScheduler.restorePromptAffinity at restored seen
      split at restored
      next => simp at restored
      next usable =>
      rw [if_neg usable] at seen
      dsimp only at restored seen
      split at restored
      next => simp at restored
      next cold =>
      rw [if_neg cold] at seen
      have absent : (runtime.scheduler.promptAffinity.prune nowMs).bindings[key]? = none := by
        simpa [AffinityCache.contains] using cold
      dsimp only [PoolScheduler.promptAffinitySnapshot] at restored seen
      unfold AffinityCache.restore at restored seen
      split at seen
      next => simp [AffinityCache.getWithExpiry, AffinityCache.contains, absent] at seen
      next room =>
        rw [if_neg room] at restored
        refine AffinityCache.insertBinding_getWithExpiry ?_ seen
        cases outcome : (AffinityCache.insertBinding _ key owner _ binding.expiresAtMs nowMs).2 with
        | returned => rfl
        | panicked message => simp [outcome, Outcome.map] at restored

end GatewayRuntime

/-! ## Runs -/

namespace AffinityPool

variable {stripe : String → Fin promptAffinityLocks} {pool : AffinityPool} {id : TaskId}
  {runtime : RuntimeId} {key : String} {nowMs : Nat} {change : Option ResponseAffinityBinding}
  {phases : TaskId → Option AffinityPhase}

/-- Every call is in the phase that its program has reached. -/
abbrev InPhases (stripe : String → Fin promptAffinityLocks) (pool : AffinityPool)
    (phases : TaskId → Option AffinityPhase) : Prop :=
  ∀ id, (stripeDiscipline stripe).InPhase pool phases id

theorem nextAction_eq {action : AffinityAction} (next : pool.nextAction id = some action) :
    ∃ rest, pool.task id = some (.perform action rest) := by
  unfold TaskPool.nextAction at next
  obtain ⟨remaining, runs, performs⟩ := Option.bind_eq_some_iff.mp next
  cases remaining with
  | done result => cases performs
  | perform other rest =>
      obtain rfl := Option.some.inj performs
      exact ⟨rest, runs⟩

/-- What the next action of a call leads to, if it does not have to wait. -/
theorem resumed (stripes : StripesHeld stripe pool.shared phases)
    (inPhases : pool.InPhases stripe phases) {action : AffinityAction} {oracle : StoreOracle}
    {after : SharedAffinity} {response : action.Response}
    (next : pool.nextAction id = some action)
    (executed : pool.shared.execute stripe id action oracle = some (after, response)) :
    ∃ phase, phases id = some phase ∧ phase.Allowed action ∧
      (pool.resume stripe id oracle).shared = after ∧
      StripesHeld stripe (pool.resume stripe id oracle).shared
        (Function.update phases id (some (phase.after action response))) ∧
      (pool.resume stripe id oracle).InPhases stripe
        (Function.update phases id (some (phase.after action response))) := by
  obtain ⟨rest, runs⟩ := nextAction_eq next
  exact Discipline.perform stripes inPhases runs executed

/-- The phase of a call that is about to act allows the action. -/
private theorem acting (inPhases : pool.InPhases stripe phases) {action : AffinityAction}
    (next : pool.nextAction id = some action) :
    ∃ phase, phases id = some phase ∧ phase.Allowed action := by
  obtain ⟨rest, runs⟩ := nextAction_eq next
  obtain ⟨phase, reached, follows⟩ := (inPhases id).running runs
  exact ⟨phase, reached, follows.of_perform.1⟩

/-- The result of a call that returns next fits its phase. -/
theorem returning (inPhases : pool.InPhases stripe phases) {result : AffinityResult}
    (runs : pool.task id = some (.done result)) :
    ∃ phase, phases id = some phase ∧ phase.Final result := by
  obtain ⟨phase, reached, follows⟩ := (inPhases id).running runs
  exact ⟨phase, reached, follows.of_done⟩

/-- A call with nothing left to do returns next. -/
private theorem declined_done (inPhases : pool.InPhases stripe phases)
    (reached : phases id = some (.declined key)) : pool.task id = some (.done .undecided) := by
  cases runs : pool.task id with
  | none =>
      rw [(inPhases id).idle runs] at reached
      cases reached
  | some remaining =>
      obtain ⟨phase, same, follows⟩ := (inPhases id).running runs
      rw [reached] at same
      obtain rfl := Option.some.inj same
      cases follows with
      | perform allowed rest => exact allowed.elim
      | done final =>
          next result =>
          cases result with
          | undecided => rfl
          | saved other change => cases final
          | unsaved other change => cases final

/-- The call has decided that the durable binding of the key becomes `change`. -/
def Concludes (id : TaskId) (key : String) (change : Option ResponseAffinityBinding)
    (phases : TaskId → Option AffinityPhase) : Prop :=
  phases id = some (.decided key change) ∨ phases id = some (.saved key change) ∨
    phases id = some (.unsaved key change)

private theorem concludes_keeps (stripe : String → Fin promptAffinityLocks) (id : TaskId) (key : String)
    (change : Option ResponseAffinityBinding) :
    (stripeDiscipline stripe).Keeps (fun _ phases => Concludes id key change phases)
      (Stays stripe id) := by
  intro pool event phases after phasesAfter stripes concludes stays gone steps
  cases steps with
  | idle => exact concludes
  | spawned absent =>
      next other =>
      have different : id ≠ other := by
        rintro rfl
        rcases concludes with reached | reached | reached <;> simp [absent] at reached
      simpa [Concludes, Function.update_of_ne different] using concludes
  | @left other phase reached _ =>
      have different : id ≠ other := by
        rintro rfl
        exact stays (gone id (Function.update_self _ _ _))
      simpa [Concludes, Function.update_of_ne different] using concludes
  | performed resumed runs reached allowed executed =>
      next other oracle action response rest phase =>
      by_cases different : id = other
      · subst different
        have unfinished : phase = .decided key change := by
          rcases concludes with same | same | same <;>
            (rw [reached] at same; obtain rfl := Option.some.inj same)
          · rfl
          · exact allowed.elim
          · exact allowed.elim
        subst unfinished
        unfold Concludes
        rw [Function.update_self]
        cases action <;> try exact allowed.elim
        · match response with
          | .ok () => exact .inr (.inl rfl)
          | .error _ => exact .inr (.inr rfl)
        · match response with
          | .ok () => exact .inr (.inl rfl)
          | .error _ => exact .inr (.inr rfl)
      · simpa [Concludes, Function.update_of_ne different] using concludes

/-- The step of a decision: memory shows it, and the call goes on to write it. -/
theorem Decides.step (decides : pool.Decides id runtime key nowMs change)
    (stripes : StripesHeld stripe pool.shared phases) (inPhases : pool.InPhases stripe phases)
    (oracle : StoreOracle) :
    (pool.resume stripe id oracle).shared.memory runtime key nowMs =
        change.map ResponseAffinityBinding.shown ∧
      StripesHeld stripe (pool.resume stripe id oracle).shared
        (Function.update phases id (some (.decided key change))) ∧
      (pool.resume stripe id oracle).InPhases stripe
        (Function.update phases id (some (.decided key change))) := by
  cases decides with
  | bind next bound =>
      next candidateId owner expiresAtMs =>
      obtain ⟨phase, reached, allowed, shared, stripesAfter, inPhasesAfter⟩ :=
        resumed stripes inPhases next (SharedAffinity.execute_bindSticky oracle)
      cases phase <;> try exact allowed.elim
      obtain rfl := allowed
      rw [bound] at stripesAfter inPhasesAfter
      refine ⟨?_, stripesAfter, inPhasesAfter⟩
      rw [shared, SharedAffinity.setRuntime_memory]
      exact GatewayRuntime.bindSticky_shown bound
  | invalidate next invalidated =>
      next candidateId =>
      obtain ⟨phase, reached, allowed, shared, stripesAfter, inPhasesAfter⟩ :=
        resumed stripes inPhases next
          (SharedAffinity.execute_invalidateForCandidate oracle)
      cases phase <;> try exact allowed.elim
      obtain rfl := allowed
      rw [invalidated] at stripesAfter inPhasesAfter
      refine ⟨?_, stripesAfter, inPhasesAfter⟩
      rw [shared, SharedAffinity.setRuntime_memory]
      unfold PoolScheduler.invalidatePromptAffinityForCandidate at invalidated ⊢
      split at invalidated
      next => cases invalidated
      next active =>
        rw [if_neg active]
        exact AffinityCache.invalidateIfOwner_forgotten invalidated nowMs

theorem decided (stripes : StripesHeld stripe pool.shared phases)
    (inPhases : pool.InPhases stripe phases) (oracle : StoreOracle)
    (decides : pool.Decides id runtime key nowMs change) {events : List AffinityEvent}
    (stays : Along stripe (Stays stripe id) (pool.resume stripe id oracle) events)
    {result : AffinityResult}
    (returns : ((pool.resume stripe id oracle).run stripe events).task id = some (.done result)) :
    result = .unsaved key change ∨
      (result = .saved key change ∧
        ((pool.resume stripe id oracle).run stripe events).shared.store[key]? = change) := by
  obtain ⟨-, stripes, inPhases⟩ := decides.step stripes inPhases oracle
  have concluding : Concludes id key change
      (Function.update phases id (some (.decided key change))) :=
    .inl (Function.update_self _ _ _)
  obtain ⟨phases, stripes, inPhases, concludes⟩ := (concludes_keeps stripe id key change).run
    stripes inPhases concluding (fun _ _ _ => trivial) stays
  obtain ⟨phase, reached, final⟩ := returning inPhases returns
  rcases concludes with same | same | same <;>
    (rw [reached] at same; obtain rfl := Option.some.inj same)
  · cases result with
    | undecided => rcases final with impossible | ⟨other, impossible⟩ <;> cases impossible
    | saved other written => cases final
    | unsaved other written => cases final
  · cases result with
    | undecided => rcases final with impossible | ⟨other, impossible⟩ <;> cases impossible
    | saved other written =>
        cases final
        exact .inr ⟨rfl, stripes.accurate id _ reached⟩
    | unsaved other written => cases final
  · cases result with
    | undecided => rcases final with impossible | ⟨other, impossible⟩ <;> cases impossible
    | saved other written => cases final
    | unsaved other written =>
        cases final
        exact .inl rfl

theorem restored (stripes : StripesHeld stripe pool.shared phases)
    (inPhases : pool.InPhases stripe phases) {binding : ResponseAffinityBinding}
    (oracle : StoreOracle)
    (next : pool.nextAction id = some (.restore runtime key binding nowMs)) :
    pool.shared.store[key]? = some binding ∧
      (pool.resume stripe id oracle).shared.store = pool.shared.store ∧
      (((pool.shared.runtimes runtime).restore key binding nowMs).2 = .returned true →
        ∃ owner, (pool.shared.runtimes runtime).restoredOwner binding.candidateId = some owner ∧
          ∀ shown, (pool.resume stripe id oracle).shared.memory runtime key nowMs = some shown →
            shown = (owner, binding.expiresAtMs)) := by
  obtain ⟨phase, reached, allowed, shared, -, -⟩ :=
    resumed stripes inPhases next (SharedAffinity.execute_restore oracle)
  cases phase <;> try exact allowed.elim
  obtain ⟨rfl, rfl⟩ := allowed
  refine ⟨stripes.accurate id _ reached, by rw [shared]; rfl, fun answered => ?_⟩
  obtain ⟨owner, resolved, shows⟩ := GatewayRuntime.restore_shown answered
  refine ⟨owner, resolved, fun shown seen => shows shown ?_⟩
  rwa [shared, SharedAffinity.setRuntime_memory] at seen

/-- The key has no durable binding, and no call is about to write one. -/
def Unbound (key : String) (shared : SharedAffinity) (phases : TaskId → Option AffinityPhase) :
    Prop :=
  shared.store[key]? = none ∧ ∀ id binding, phases id ≠ some (.decided key (some binding))

/-- An action of a call writes no key that it has not decided on. -/
private theorem execute_store {phase : AffinityPhase} {action : AffinityAction} {oracle : StoreOracle}
    {shared after : SharedAffinity} {response : action.Response} (allowed : phase.Allowed action)
    (unbinds : ∀ binding, phase ≠ .decided key (some binding))
    (executed : shared.execute stripe id action oracle = some (after, response))
    (absent : shared.store[key]? = none) : after.store[key]? = none := by
  cases action with
  | upsert binding =>
      cases phase <;> try exact allowed.elim
      obtain ⟨rfl, rfl⟩ := allowed
      have different : key ≠ binding.key := fun same => unbinds binding (same ▸ rfl)
      cases oracle with
      | some error =>
          cases executed
          exact absent
      | none =>
          cases executed
          exact ((BTreeMap.lookup_insert ..).trans (if_neg different)).trans absent
  | delete other =>
      cases oracle with
      | some error =>
          cases executed
          exact absent
      | none =>
          cases executed
          refine (BTreeMap.lookup_erase ..).trans ?_
          split
          · rfl
          · exact absent
  | find other nowMs =>
      cases oracle with
      | some error =>
          cases executed
          exact absent
      | none =>
          cases executed
          exact absent
  | lockPromptAffinity other =>
      simp only [SharedAffinity.execute] at executed
      split at executed
      next =>
        cases executed
        exact absent
      next => cases executed
  | schedule _ _ | hasPromptAffinity _ _ _ | bindSticky _ _ _ _ | restore _ _ _ _
    | invalidateForCandidate _ _ _ =>
      cases executed
      exact absent

private theorem unbound_keeps (stripe : String → Fin promptAffinityLocks) (key : String) :
    (stripeDiscipline stripe).Keeps (Unbound key) (LeavesUnbound key) := by
  intro pool event phases after phasesAfter stripes unbound leaves gone steps
  obtain ⟨absent, undecided⟩ := unbound
  cases steps with
  | idle => exact ⟨absent, undecided⟩
  | spawned free =>
      next task =>
      refine ⟨absent, fun id binding => ?_⟩
      by_cases same : id = task
      · rw [same, Function.update_self]
        exact nofun
      · rw [Function.update_of_ne same]
        exact undecided id binding
  | @left task phase reached _ =>
      refine ⟨absent, fun id binding => ?_⟩
      by_cases same : id = task
      · rw [same, Function.update_self]
        exact nofun
      · rw [Function.update_of_ne same]
        exact undecided id binding
  | performed resumed runs reached allowed executed =>
      next task oracle action response rest phase =>
      have unbinds : ∀ binding, phase ≠ .decided key (some binding) := by
        rintro binding rfl
        exact undecided task binding reached
      refine ⟨execute_store allowed unbinds executed absent, fun id binding => ?_⟩
      by_cases same : id = task
      · rw [same, Function.update_self]
        intro moved
        have decides : phase.after action response = .decided key (some binding) :=
          Option.some.inj moved
        have next : pool.nextAction task = some action := by
          unfold TaskPool.nextAction
          rw [runs]
          rfl
        cases phase with
        | free => cases action <;> cases decides
        | locked own =>
            cases action <;> try exact allowed.elim
            · next runtime other nowMs =>
              cases response <;> cases decides
            · next runtime other candidateId nowMs =>
              obtain rfl := allowed
              match response with
              | .panicked _ => cases decides
              | .returned none => cases decides
              | .returned (some (owner, expiresAtMs)) =>
                  cases decides
                  refine leaves task oracle runtime nowMs ⟨key, owner, expiresAtMs⟩ resumed
                    (.bind next ?_)
                  exact congrArg Prod.snd (Option.some.inj executed)
            · next runtime other candidateId =>
              cases response <;> cases decides
            · next other nowMs =>
              match response with
              | .ok (some _) => cases decides
              | .ok none => cases decides
              | .error _ => cases decides
        | declined own => exact allowed.elim
        | found own read => cases action <;> first | exact allowed.elim | cases decides
        | decided own change =>
            cases action <;> try exact allowed.elim
            · match response with
              | .ok () => cases decides
              | .error _ => cases decides
            · match response with
              | .ok () => cases decides
              | .error _ => cases decides
        | saved own change => exact allowed.elim
        | unsaved own change => exact allowed.elim
      · rw [Function.update_of_ne same]
        exact undecided id binding

theorem forgotten (stripes : StripesHeld stripe pool.shared phases)
    (inPhases : pool.InPhases stripe phases)
    (deleted : pool.task id = some (.done (.saved key none))) {events : List AffinityEvent}
    (leaves : Along stripe (LeavesUnbound key) pool events) :
    (pool.run stripe events).shared.store[key]? = none ∧
      ∀ other runtime binding nowMs,
        (pool.run stripe events).nextAction other ≠ some (.restore runtime key binding nowMs) := by
  obtain ⟨phase, reached, final⟩ := returning inPhases deleted
  obtain rfl : phase = .saved key none := final
  have unbound : Unbound key pool.shared phases := by
    refine ⟨stripes.accurate id _ reached, fun other binding decided => ?_⟩
    obtain rfl := stripes.exclusive reached decided rfl rfl
    rw [reached] at decided
    cases decided
  obtain ⟨phases, stripes, inPhases, absent, -⟩ := (unbound_keeps stripe key).run stripes inPhases
    unbound (fun _ _ _ => trivial) leaves
  refine ⟨absent, fun other runtime binding nowMs next => ?_⟩
  obtain ⟨phase, reached, allowed⟩ := acting inPhases next
  cases phase <;> try exact allowed.elim
  obtain ⟨rfl, rfl⟩ := allowed
  have stored := stripes.accurate other _ reached
  rw [AffinityPhase.Accurate, absent] at stored
  cases stored

theorem otherOwner (stripes : StripesHeld stripe pool.shared phases)
    (inPhases : pool.InPhases stripe phases) {candidateId : String} (oracle : StoreOracle)
    (next : pool.nextAction id = some (.invalidateForCandidate runtime key candidateId))
    (other : ¬(pool.shared.runtimes runtime).Remembers key candidateId) :
    (pool.resume stripe id oracle).shared.store = pool.shared.store ∧
      (∀ shown nowMs, (pool.resume stripe id oracle).shared.memory runtime shown nowMs =
        pool.shared.memory runtime shown nowMs) ∧
      (pool.resume stripe id oracle).task id = some (.done .undecided) := by
  obtain ⟨phase, reached, allowed, shared, stripesAfter, inPhasesAfter⟩ :=
    resumed stripes inPhases next
      (SharedAffinity.execute_invalidateForCandidate oracle)
  cases phase <;> try exact allowed.elim
  obtain rfl := allowed
  have answers : ((pool.shared.runtimes runtime).scheduler.invalidatePromptAffinityForCandidate key
        candidateId).2 = false ∧
      ∀ shown nowMs, ((pool.shared.runtimes runtime).scheduler.invalidatePromptAffinityForCandidate
        key candidateId).1.promptAffinitySnapshot shown nowMs =
          (pool.shared.runtimes runtime).scheduler.promptAffinitySnapshot shown nowMs := by
    unfold PoolScheduler.invalidatePromptAffinityForCandidate
    split
    next => exact ⟨rfl, fun _ _ => rfl⟩
    next active =>
      have foreign := fun own => other ⟨by simpa using active, own⟩
      obtain ⟨refused, shows⟩ := AffinityCache.invalidateIfOwner_other foreign
      exact ⟨refused, shows⟩
  rw [answers.1] at inPhasesAfter
  refine ⟨by rw [shared]; rfl, fun shown nowMs => ?_,
    declined_done inPhasesAfter (Function.update_self _ _ _)⟩
  rw [shared, SharedAffinity.setRuntime_memory]
  exact answers.2 shown nowMs

/-- A runtime that remembers the owner decides to delete its binding. -/
private theorem remembered_decides {candidateId : String}
    (next : pool.nextAction id = some (.invalidateForCandidate runtime key candidateId))
    (remembers : (pool.shared.runtimes runtime).Remembers key candidateId) (nowMs : Nat) :
    pool.Decides id runtime key nowMs none := by
  refine .invalidate next ?_
  obtain ⟨active, own⟩ := remembers
  rw [PoolScheduler.invalidatePromptAffinityForCandidate, if_neg (by simp [active])]
  obtain ⟨binding, found, same⟩ := Option.map_eq_some_iff.mp own
  dsimp only [AffinityCache.invalidateIfOwner, AffinityCache.invalidate]
  rw [if_pos (by simp [found, same])]
  exact Std.ExtTreeMap.contains_iff_mem.mpr
    (Std.ExtTreeMap.mem_iff_isSome_getElem?.mpr (by rw [found]; rfl))

private theorem owners_forgotten (stripes : StripesHeld stripe pool.shared phases)
    (inPhases : pool.InPhases stripe phases) {event : AffinityEvent}
    (agree : pool.OwnersAgree event) : OwnersForgotten stripe pool event where
  owner := by
    rintro id oracle runtime key candidateId binding rfl next stored owned
    rw [AffinityPool.OwnersAgree] at agree
    simp only [next] at agree
    exact remembered_decides next ((agree binding stored).mpr owned)
  others := by
    rintro id oracle runtime key candidateId binding rfl next stored foreign
    rw [AffinityPool.OwnersAgree] at agree
    simp only [next] at agree
    exact otherOwner stripes inPhases oracle next
      fun remembers => foreign ((agree binding stored).mp remembers)

/-- The phases that the calls of a run have reached. -/
theorem run_phases (stripe : String → Fin promptAffinityLocks) (start : SharedAffinity)
    (events : List AffinityEvent) :
    ∃ phases, StripesHeld stripe (AffinityPool.run stripe (.init start) events).shared phases ∧
      (AffinityPool.run stripe (.init start) events).InPhases stripe phases := by
  have initially : StripesHeld stripe start (fun _ => none) := ⟨nofun, nofun⟩
  have idle : (stripeDiscipline stripe).Holds (.init start) := Discipline.init initially
  have reached : (stripeDiscipline stripe).Holds (AffinityPool.run stripe (.init start) events) :=
    Discipline.run idle fun _ _ _ => trivial
  obtain ⟨phases, stripes, inPhases⟩ := reached
  exact ⟨phases, stripes, inPhases⟩

/-- Whatever calls run over one store, and in whatever order their sections and store
calls come: decisions are written through, and while the runtimes that failures are
reported to agree with the store on the owners, failures forget what their candidate owns
and nothing else. -/
theorem prompt_affinity_written_through (stripe : String → Fin promptAffinityLocks)
    (start : SharedAffinity) (events : List AffinityEvent) :
    WrittenThrough stripe (AffinityPool.run stripe (.init start) events) ∧
      (Along stripe OwnersAgree (.init start) events →
        ∀ before event after, events = before ++ event :: after →
          OwnersForgotten stripe (AffinityPool.run stripe (.init start) before) event) := by
  constructor
  · obtain ⟨phases, stripes, inPhases⟩ := run_phases stripe start events
    exact {
      decided := fun id runtime key nowMs change oracle decides =>
        ⟨(decides.step stripes inPhases oracle).1, fun events stays result returns =>
          decided stripes inPhases oracle decides stays returns⟩
      restored := fun id runtime key binding nowMs oracle next =>
        restored stripes inPhases oracle next
      forgotten := fun id key deleted events leaves => forgotten stripes inPhases deleted leaves
      otherOwner := fun id runtime key candidateId oracle next other =>
        otherOwner stripes inPhases oracle next fun remembers => other remembers.2 }
  · rintro agree before event after rfl
    obtain ⟨phases, stripes, inPhases⟩ := run_phases stripe start before
    exact owners_forgotten stripes inPhases ((Execution.along_append _).mp agree).2.1

/-- A call with nothing in between. -/
def alone (id : TaskId) (operation : AffinityOperation) : List AffinityEvent :=
  .spawn id operation :: List.replicate 6 (.resume id none)

def oneStripe : String → Fin promptAffinityLocks := fun _ => ⟨0, by decide⟩

/-- Runtimes that know two candidates and remember no key. -/
def coldStart (store : BTreeMap String ResponseAffinityBinding) : SharedAffinity where
  runtimes := fun _ => ⟨PoolScheduler.create.runOperations
    [.upsert (PoolScheduler.sampleCandidate "a" "first"),
      .upsert (PoolScheduler.sampleCandidate "b" "second")], ∅⟩
  store
  locks := fun _ => none

/-- Runtime 0 binds the key to a candidate; runtime 1 restores it, invalidates it there and
binds it to another one. -/
def ownerMoves : List AffinityEvent :=
  alone 0 (.bind 0 (some "cache:chat") "a" 5) ++ alone 1 (.restore 1 "cache:chat" 6) ++
    alone 2 (.invalidate 1 (some "cache:chat") "a") ++
      alone 3 (.bind 1 (some "cache:chat") "b" 7)

/-- The old owner's late failure at the runtime that has seen the key move. -/
theorem old_owner_failure_keeps_binding :
    OwnersForgotten oneStripe (AffinityPool.run oneStripe (.init (coldStart ∅))
      (ownerMoves ++ [.spawn 4 (.invalidate 1 (some "cache:chat") "a"), .resume 4 none]))
      (.resume 4 none) :=
  (prompt_affinity_written_through oneStripe (coldStart ∅)
    (ownerMoves ++ [.spawn 4 (.invalidate 1 (some "cache:chat") "a"), .resume 4 none,
      .resume 4 none])).2 (by decide +kernel) _ _ [] (by simp)

/-- A late failure that is reported to the runtime that has not seen the key move deletes
the new owner's durable binding. The failure of an owner that is reported to a runtime
without the key in memory leaves the durable binding, and the next restore brings it back. -/
theorem late_failure_deletes_new_owner :
    (¬∀ (stripe : String → Fin promptAffinityLocks) (start : SharedAffinity)
      (events : List AffinityEvent) (id : TaskId) (runtime : RuntimeId) (key candidateId : String)
      (binding : ResponseAffinityBinding),
      let pool := AffinityPool.run stripe (.init start) events
      pool.task id = none → pool.shared.store[key]? = some binding →
      ¬binding.OwnedBy (pool.shared.runtimes runtime) candidateId →
        (AffinityPool.run stripe pool
          (alone id (.invalidate runtime (some key) candidateId))).shared.store[key]? =
            some binding) ∧
    ¬∀ (stripe : String → Fin promptAffinityLocks) (start : SharedAffinity) (runtime : RuntimeId)
      (key candidateId : String) (nowMs : Nat) (binding : ResponseAffinityBinding),
      (∀ lock, start.locks lock = none) → start.store[key]? = some binding →
      binding.candidateId = candidateId →
        let invalidated := AffinityPool.run stripe (.init start)
          (alone 0 (.invalidate runtime (some key) candidateId))
        let restored := AffinityPool.run stripe invalidated (alone 1 (.restore runtime key nowMs))
        restored.shared.memory runtime key nowMs ≠ some binding.shown := by
  constructor
  · intro kept
    have deleted : (AffinityPool.run oneStripe
        (AffinityPool.run oneStripe (.init (coldStart ∅)) ownerMoves)
        (alone 4 (.invalidate 0 (some "cache:chat") "a"))).shared.store["cache:chat"]? = none := by
      decide +kernel
    obtain ⟨binding, stored, foreign⟩ : ∃ binding,
        (AffinityPool.run oneStripe (.init (coldStart ∅)) ownerMoves).shared.store["cache:chat"]? =
          some binding ∧ ¬binding.OwnedBy ((AffinityPool.run oneStripe (.init (coldStart ∅))
            ownerMoves).shared.runtimes 0) "a" :=
      ⟨⟨"cache:chat", "b", 3600007⟩, by decide +kernel, by decide +kernel⟩
    have still := kept oneStripe (coldStart ∅) ownerMoves 4 0 "cache:chat" "a" binding
      (by decide +kernel) stored foreign
    rw [deleted] at still
    cases still
  · intro forgotten
    refine forgotten oneStripe
      (coldStart ((∅ : BTreeMap String ResponseAffinityBinding).insert "cache:chat"
        ⟨"cache:chat", "a", 1000⟩)) 0 "cache:chat" "a" 5 ⟨"cache:chat", "a", 1000⟩
      (fun _ => rfl) (by decide +kernel) rfl ?_
    decide +kernel

end AffinityPool

end ZenithRelay.Runtime
