import ZenithRelay.Scheduler.Rotation.Engine.RecoveryGateProperties

/-!
# Late outcomes

A removed member is fenced by its generation. A replaced route is fenced by what
its key is bound to, so a late outcome stays without effect as long as the key of a
live lease is not bound anew to a route that matches the reserved one.
-/

set_option autoImplicit false

namespace ZenithRelay.Scheduler.Rotation

/-- The match that dispatch asks of a stored route: the model up to ASCII case. -/
def RotationRoute.serves (route reserved : RotationRoute) : Bool :=
  Text.eqIgnoreAsciiCase route.model reserved.model && route.operation == reserved.operation

@[simp] theorem RotationRoute.serves_refl (route : RotationRoute) : route.serves route = true := by
  simp [serves]

namespace RotationEngine

/-- The generation the lease was reserved from is the stored one. -/
def GenerationCurrent (engine : RotationEngine) (lease : LeaseRuntime) : Prop :=
  engine.candidateGenerations[lease.candidateId]? = some lease.candidateGeneration

/-- The route the lease's key is bound to now. -/
def boundRoute (engine : RotationEngine) (lease : LeaseRuntime) : Option RotationRoute :=
  engine.candidates[lease.candidateId]?.bind fun runtime =>
    runtime.candidate.routes[lease.routeKey]?

/-- The operation removes the lease's member, or replaces or drops its route. -/
def Fences (lease : LeaseRuntime) (engine : RotationEngine) : EngineOperation → Prop
  | .remove candidateId =>
    candidateId = lease.candidateId ∧ (engine.candidates[candidateId]?).isSome
  | .upsert candidate =>
    candidate.validate = .ok () ∧ candidate.id = lease.candidateId ∧
      ∃ runtime, engine.candidates[candidate.id]? = some runtime ∧
        runtime.candidate.routes[lease.routeKey]? ≠ candidate.routes[lease.routeKey]?
  | _ => False

/-- The operation changes the route under the key of a live lease of this very
member to one that matches the reserved route. -/
def Rebinds (engine : RotationEngine) : EngineOperation → Prop
  | .upsert candidate =>
    candidate.validate = .ok () ∧
      ∃ (runtime : CandidateRuntime) (leaseId : LeaseId) (lease : LeaseRuntime)
        (route : RotationRoute),
        engine.candidates[candidate.id]? = some runtime ∧
        engine.leases[leaseId]? = some lease ∧ candidate.id = lease.candidateId ∧
        engine.GenerationCurrent lease ∧
        runtime.candidate.routes[lease.routeKey]? ≠ candidate.routes[lease.routeKey]? ∧
        candidate.routes[lease.routeKey]? = some route ∧ route.serves lease.route
  | _ => False

/-- The settlement and the dispatch of the lease find nothing they may touch: all a
settlement does is give the lease's own permits back. -/
def OutcomeInert (engine : RotationEngine) (leaseId : LeaseId) (lease : LeaseRuntime) : Prop :=
  (∀ observation budget clock nowMs firstOutputLatencyMs,
    (engine.settleWithLatency leaseId observation budget clock nowMs firstOutputLatencyMs).1 =
        engine ∨
      (engine.settleWithLatency leaseId observation budget clock nowMs firstOutputLatencyMs).1 =
        { engine with
          leases := engine.leases.erase leaseId
          candidates := (engine.dropLease leaseId lease).candidates
          capacityInFlight := (engine.dropLease leaseId lease).capacityInFlight
          recoveryInFlight := (engine.dropLease leaseId lease).recoveryInFlight }) ∧
    ∀ budget clock allowRetainedLease, ∃ refusal,
      engine.beginDispatchInternal leaseId budget clock allowRetainedLease =
        (engine, budget, .error refusal)

/-- A lease whose member or route is gone, and that no circuit waits for. -/
structure Fenced (engine : RotationEngine) (lease : LeaseRuntime) : Prop where
  stale : engine.GenerationCurrent lease →
    ∀ route, engine.boundRoute lease = some route → route.serves lease.route = false
  ungated : ∀ circuit, engine.circuits[(lease.candidateId, lease.routeKey)]? = some circuit →
    circuit.halfOpenLease ≠ some lease.leaseId

namespace Fenced

variable {engine : RotationEngine} {lease : LeaseRuntime}

theorem observationCurrent (fenced : Fenced engine lease) :
    engine.observationCurrent lease = false := by
  rw [Bool.eq_false_iff]
  intro current
  unfold RotationEngine.observationCurrent at current
  rw [Bool.and_eq_true, beq_iff_eq, beq_iff_eq] at current
  obtain ⟨generation, route⟩ := current
  have differs := fenced.stale generation lease.route route
  rw [RotationRoute.serves_refl] at differs
  cases differs

theorem stillCurrent (fenced : Fenced engine lease) : engine.stillCurrent lease = false := by
  rw [Bool.eq_false_iff]
  intro current
  unfold RotationEngine.stillCurrent at current
  cases found : engine.candidates[lease.candidateId]? with
  | none => simp [found] at current
  | some runtime =>
      cases stored : runtime.candidate.routes[lease.routeKey]? with
      | none => simp [found, stored] at current
      | some route =>
          simp only [found, stored, Option.any_some, Bool.and_eq_true, beq_iff_eq] at current
          have differs := fenced.stale current.1.1.1.1.1.1.1.1 route
            (by rw [boundRoute, found]; exact stored)
          simp [RotationRoute.serves, current.2.1, current.2.2] at differs

/-- The permits of a fenced lease are no circuit's. -/
private theorem dropLease_circuits (fenced : Fenced engine lease) (leaseId : LeaseId) :
    (engine.dropLease leaseId lease).circuits = engine.circuits := by
  change (if lease.recovery then engine.circuits.modify (lease.candidateId, lease.routeKey)
    (·.releaseGate lease.leaseId) else engine.circuits) = engine.circuits
  split
  · refine BTreeMap.ext_lookup fun key => ?_
    rw [BTreeMap.lookup_modify]
    split
    next own =>
      cases found : engine.circuits[key]? with
      | none => rfl
      | some circuit =>
          rw [Option.map_some, CircuitRuntime.releaseGate,
            if_neg (fenced.ungated circuit (own ▸ found))]
    next => rfl
  · rfl

theorem inert (fenced : Fenced engine lease) {leaseId : LeaseId}
    (found : engine.leases[leaseId]? = some lease) : engine.OutcomeInert leaseId lease := by
  refine ⟨fun observation budget clock nowMs firstOutputLatencyMs => ?_,
    fun budget clock allowRetainedLease => ?_⟩
  · rcases engine.settleWithLatency_cases leaseId observation budget clock nowMs
      firstOutputLatencyMs with ⟨error, refused⟩ | ⟨settled, settlement, live, -, -, outcome⟩
    · exact .inl (by rw [refused])
    · rw [found] at live
      cases live
      right
      rw [outcome]
      dsimp only
      rw [settleLease, if_neg (by rw [fenced.observationCurrent]; nofun),
        ← fenced.dropLease_circuits leaseId]
      rfl
  · rcases engine.beginDispatchInternal_cases leaseId budget clock allowRetainedLease with
      ⟨refusal, refused⟩ | ⟨pending, attemptId, live, allowed, -, -⟩
    · exact ⟨refusal, refused⟩
    · rw [found] at live
      cases live
      exfalso
      unfold dispatchRefusal at allowed
      dsimp only at allowed
      rw [fenced.stillCurrent] at allowed
      split at allowed
      next => cases allowed
      split at allowed <;> cases allowed

end Fenced

/-- Every stored member was stored before, under the same routes. -/
def KeepsRoutes (engine after : RotationEngine) : Prop :=
  ∀ (id : String) (later : CandidateRuntime), after.candidates[id]? = some later →
    ∃ earlier, engine.candidates[id]? = some earlier ∧
      later.candidate.routes = earlier.candidate.routes

namespace KeepsRoutes

variable {engine after : RotationEngine}

theorem of_same (same : after.candidates = engine.candidates) : KeepsRoutes engine after :=
  fun _ later found => ⟨later, same ▸ found, rfl⟩

theorem of_modify {candidateId : String} {update : CandidateRuntime → CandidateRuntime}
    (candidates : after.candidates = engine.candidates.modify candidateId update)
    (routes : ∀ runtime, (update runtime).candidate.routes = runtime.candidate.routes) :
    KeepsRoutes engine after := by
  intro id later found
  rw [candidates, BTreeMap.lookup_modify] at found
  split at found
  · obtain ⟨earlier, stored, rfl⟩ := Option.map_eq_some_iff.mp found
    exact ⟨earlier, stored, routes earlier⟩
  · exact ⟨later, found, rfl⟩

theorem setQuotaIfNewer (engine : RotationEngine) (candidateId : String) (quota : QuotaState)
    (revision : Nat) :
    KeepsRoutes engine (engine.setQuotaIfNewer candidateId quota revision).1 := by
  unfold RotationEngine.setQuotaIfNewer
  split
  · exact of_same rfl
  · split
    · exact of_same rfl
    · refine of_modify rfl fun runtime => ?_
      dsimp only
      split <;> rfl

theorem dropLease (engine : RotationEngine) (leaseId : LeaseId) (lease : LeaseRuntime) :
    KeepsRoutes engine (engine.dropLease leaseId lease) := by
  by_cases current : engine.candidateGenerations[lease.candidateId]? =
      some lease.candidateGeneration
  · exact of_modify (if_pos current) fun _ => rfl
  · exact of_same (if_neg current)

theorem settleWithLatency (engine : RotationEngine) (leaseId : LeaseId)
    (observation : AttemptObservation) (budget : RequestBudget) (clock : ClockReadings)
    (nowMs : Nat) (firstOutputLatencyMs : Option Nat) :
    KeepsRoutes engine (engine.settleWithLatency leaseId observation budget clock nowMs
      firstOutputLatencyMs).1 := by
  rcases engine.settleWithLatency_cases leaseId observation budget clock nowMs
    firstOutputLatencyMs with ⟨error, refused⟩ | ⟨lease, settlement, -, -, -, settled⟩
  · rw [refused]
    exact of_same rfl
  · rw [settled]
    obtain ⟨circuits, healthRecords, credits, successes, same⟩ :=
      engine.settleLease_same leaseId lease observation.health nowMs firstOutputLatencyMs
    rw [same]
    exact dropLease engine leaseId lease

theorem beginDispatchInternal (engine : RotationEngine) (leaseId : LeaseId)
    (budget : RequestBudget) (clock : ClockReadings) (allowRetainedLease : Bool) :
    KeepsRoutes engine
      (engine.beginDispatchInternal leaseId budget clock allowRetainedLease).1 := by
  rcases engine.beginDispatchInternal_cases leaseId budget clock allowRetainedLease with
    ⟨refusal, refused⟩ | ⟨pending, attemptId, -, -, -, started⟩
  · rw [refused]
    exact of_same rfl
  · rw [started]
    exact of_same rfl

end KeepsRoutes

/-- Routes are bound by `upsert` alone. -/
private theorem apply_keepsRoutes (engine : RotationEngine) (operation : EngineOperation)
    (other : ∀ candidate, operation ≠ .upsert candidate) :
    KeepsRoutes engine (engine.apply operation) := by
  cases operation with
  | upsert candidate => exact absurd rfl (other candidate)
  | setMode mode =>
      change KeepsRoutes engine (engine.setMode mode)
      unfold setMode
      split <;> exact .of_same rfl
  | setQuotaStaleAfterMs | setRecoveryPolicy => exact .of_same rfl
  | setMaxInFlight maxInFlight =>
      change KeepsRoutes engine (engine.setMaxInFlight maxInFlight).1
      unfold setMaxInFlight
      split <;> exact .of_same rfl
  | remove candidateId =>
      change KeepsRoutes engine (engine.remove candidateId).1
      rcases engine.remove_cases candidateId with ⟨-, unknown⟩ | ⟨runtime, -, removed⟩
      · rw [unknown]
        exact .of_same rfl
      · rw [removed, eraseCandidate_same]
        intro id later found
        change (engine.candidates.erase candidateId)[id]? = some later at found
        rw [BTreeMap.lookup_erase] at found
        split at found
        · cases found
        · exact ⟨later, found, rfl⟩
  | setQuotaIfNewer candidateId quota revision =>
      exact .setQuotaIfNewer engine candidateId quota revision
  | setQuota candidateId quota => exact .setQuotaIfNewer engine candidateId quota _
  | syncCandidateState | syncCandidateRouteRate | setAuth | setQuotaRemaining
  | setProviderCredits | setRate | setEnabled => exact .of_modify rfl fun _ => rfl
  | reserve request nowMs =>
      change KeepsRoutes engine (engine.reserve request nowMs).1
      rcases engine.reserve_cases request nowMs with
        ⟨error, refused⟩ | ⟨group, selected, runtime, admission, admitted⟩
      · rw [refused]
        exact .of_same rfl
      · obtain ⟨rotationCredit, roundRobinCursor, same⟩ :=
          engine.takeLease_same request group selected runtime
            (engine.selectionCandidates request nowMs).2
        rw [admitted, same]
        intro id later found
        change (engine.candidates.insert selected.id _)[id]? = some later at found
        rw [BTreeMap.lookup_insert] at found
        split at found
        next own =>
          cases found
          exact ⟨runtime, own ▸ admission.found, rfl⟩
        next => exact ⟨later, found, rfl⟩
  | releaseUnstarted leaseId =>
      change KeepsRoutes engine (engine.releaseUnstarted leaseId).1
      unfold releaseUnstarted
      split
      · exact .of_same rfl
      · split
        · exact .of_same rfl
        · exact .dropLease engine leaseId _
  | beginDispatch leaseId budget clock => exact .beginDispatchInternal engine leaseId budget clock _
  | beginTransportDispatch leaseId budget clock =>
      exact .beginDispatchInternal engine leaseId budget clock _
  | settleWithLatency leaseId observation budget clock nowMs firstOutputLatencyMs =>
      exact .settleWithLatency engine leaseId observation budget clock nowMs firstOutputLatencyMs
  | settle leaseId observation budget clock nowMs =>
      exact .settleWithLatency engine leaseId observation budget clock nowMs none
  | cancel leaseId budget clock nowMs =>
      exact .settleWithLatency engine leaseId _ budget clock nowMs none

end RotationEngine

namespace CircuitRuntime

private theorem releaseGate_holds {circuit : CircuitRuntime} {leaseId holder : LeaseId}
    (holds : (circuit.releaseGate leaseId).halfOpenLease = some holder) :
    circuit.halfOpenLease = some holder := by
  unfold releaseGate at holds
  split at holds
  · cases holds
  · exact holds

private theorem update_holds {circuit : CircuitRuntime} {lease : LeaseRuntime}
    {health : HealthObservation} {nowMs : Nat} {holder : LeaseId}
    (holds : (circuit.update lease health nowMs).1.halfOpenLease = some holder) :
    circuit.halfOpenLease = some holder := by
  by_cases own : circuit.halfOpenLease = some lease.leaseId
  · by_cases incident : circuit.incident = lease.circuitIncident
    · have released : circuit.update lease health nowMs =
          ({ circuit with halfOpenLease := none } : CircuitRuntime).update lease health nowMs := by
        simp only [update, incident, releaseHalfOpen, own, ne_eq, not_true_eq_false, ↓reduceIte,
          reduceCtorEq]
      rw [released, update_halfOpenLease (by simp)] at holds
      cases holds
    · rw [update, if_pos incident] at holds
      exact holds
  · rwa [update_halfOpenLease own] at holds

end CircuitRuntime

theorem RotationEngine.dropLease_holds (engine : RotationEngine) (leaseId : LeaseId)
    (lease : LeaseRuntime) {key : String × String} {circuit : CircuitRuntime} {holder : LeaseId}
    (stored : (engine.dropLease leaseId lease).circuits[key]? = some circuit)
    (holds : circuit.halfOpenLease = some holder) :
    ∃ earlier, engine.circuits[key]? = some earlier ∧ earlier.halfOpenLease = some holder := by
  change (if lease.recovery then engine.circuits.modify (lease.candidateId, lease.routeKey)
    (·.releaseGate lease.leaseId) else engine.circuits)[key]? = some circuit at stored
  split at stored
  · rw [BTreeMap.lookup_modify] at stored
    split at stored
    · obtain ⟨earlier, before, rfl⟩ := Option.map_eq_some_iff.mp stored
      exact ⟨earlier, before, CircuitRuntime.releaseGate_holds holds⟩
    · exact ⟨circuit, stored, holds⟩
  · exact ⟨circuit, stored, holds⟩

/-- Only a new registration gives a member another generation, a new one. -/
theorem Transition.generation {engine after : RotationEngine} {event : EngineEvent}
    (transition : Transition engine event after) {id : String} {generation : Nat}
    (stored : after.candidateGenerations[id]? = some generation) :
    engine.candidateGenerations[id]? = some generation ∨
      (generation = engine.nextCandidateGeneration + 1 ∧ engine.candidates[id]? = none) := by
  cases transition with
  | configure | recoveryPolicy | edit | dispatch | release => exact .inl stored
  | install candidate valid absent room =>
      rw [RotationEngine.recomputeCapacityLimit_same (engine.installCandidate candidate)] at stored
      change (engine.candidateGenerations.insert candidate.id _)[id]? = some generation at stored
      rw [BTreeMap.lookup_insert] at stored
      split at stored
      next own =>
        cases stored
        exact .inr ⟨rfl, own ▸ absent⟩
      next => exact .inl stored
  | replace candidate runtime valid found =>
      rw [RotationEngine.recomputeDerived_same (engine.replaceCandidate runtime candidate)]
        at stored
      exact .inl stored
  | remove removedId runtime found =>
      rw [RotationEngine.eraseCandidate_same engine removedId] at stored
      change (engine.candidateGenerations.erase removedId)[id]? = some generation at stored
      rw [BTreeMap.lookup_erase] at stored
      split at stored
      · cases stored
      · exact .inl stored
  | @reserve request nowMs group selected runtime admission =>
      obtain ⟨rotationCredit, roundRobinCursor, same⟩ :=
        engine.takeLease_same request group selected runtime
          (engine.selectionCandidates request nowMs).2
      rw [same] at stored
      exact .inl stored
  | settle leaseId settlement found dispatched =>
      obtain ⟨circuits, healthRecords, recoveryCredits, successes, same⟩ :=
        engine.settleLease_same leaseId settlement.lease settlement.health settlement.nowMs
          settlement.firstOutputLatencyMs
      rw [same] at stored
      exact .inl stored

/-- Only a reservation hands a half-open permit out, to the lease it makes. -/
theorem Transition.gate {engine after : RotationEngine} {event : EngineEvent}
    (transition : Transition engine event after) {key : String × String} {circuit : CircuitRuntime}
    {leaseId : LeaseId} (stored : after.circuits[key]? = some circuit)
    (holds : circuit.halfOpenLease = some leaseId) :
    (∃ earlier, engine.circuits[key]? = some earlier ∧ earlier.halfOpenLease = some leaseId) ∨
      leaseId = engine.nextLeaseId + 1 := by
  cases transition with
  | configure | recoveryPolicy | edit | dispatch => exact .inl ⟨circuit, stored, holds⟩
  | install candidate valid absent room =>
      rw [RotationEngine.recomputeCapacityLimit_same (engine.installCandidate candidate)] at stored
      exact .inl ⟨circuit, stored, holds⟩
  | replace candidate runtime valid found =>
      rw [RotationEngine.recomputeDerived_same (engine.replaceCandidate runtime candidate)]
        at stored
      change (engine.circuits.filter _)[key]? = some circuit at stored
      rw [BTreeMap.lookup_filter] at stored
      exact .inl ⟨circuit, (Option.filter_eq_some_iff.mp stored).1, holds⟩
  | remove removedId runtime found =>
      rw [RotationEngine.eraseCandidate_same engine removedId] at stored
      change (engine.circuits.filter _)[key]? = some circuit at stored
      rw [BTreeMap.lookup_filter] at stored
      exact .inl ⟨circuit, (Option.filter_eq_some_iff.mp stored).1, holds⟩
  | @reserve request nowMs group selected runtime admission =>
      obtain ⟨rotationCredit, roundRobinCursor, same⟩ :=
        engine.takeLease_same request group selected runtime
          (engine.selectionCandidates request nowMs).2
      rw [same] at stored
      change (if selected.recovery then engine.circuits.insert (selected.id, request.routeKey) _
        else engine.circuits)[key]? = some circuit at stored
      split at stored
      · rw [BTreeMap.lookup_insert] at stored
        split at stored
        · cases stored
          cases holds
          exact .inr rfl
        · exact .inl ⟨circuit, stored, holds⟩
      · exact .inl ⟨circuit, stored, holds⟩
  | release leaseId lease found unstarted =>
      exact .inl (engine.dropLease_holds leaseId lease stored holds)
  | settle leaseId settlement found dispatched =>
      left
      unfold RotationEngine.settleLease at stored
      dsimp only at stored
      split at stored
      · obtain ⟨healthRecords, same⟩ := RotationEngine.applyOutcome_same
          (engine.dropLease leaseId settlement.lease) settlement.lease settlement.health
          settlement.nowMs settlement.firstOutputLatencyMs
        rw [same] at stored
        dsimp only at stored
        rw [BTreeMap.lookup_insert] at stored
        split at stored
        next own =>
          cases stored
          have before := CircuitRuntime.update_holds holds
          unfold RotationEngine.circuitRuntime at before
          rw [← own] at before
          cases kept : (engine.dropLease leaseId settlement.lease).circuits[key]? with
          | none =>
              rw [kept] at before
              cases before
          | some circuit =>
              rw [kept] at before
              exact engine.dropLease_holds leaseId settlement.lease kept before
        next => exact engine.dropLease_holds leaseId settlement.lease stored holds
      · exact engine.dropLease_holds leaseId settlement.lease stored holds

namespace RotationEngine

variable {engine : RotationEngine} {lease : LeaseRuntime} {operation : EngineOperation}

/-- A generation that is not the stored one never comes back. -/
theorem stays_replaced (registered : Registered engine)
    (found : engine.leases[lease.leaseId]? = some lease)
    (current : (engine.apply operation).GenerationCurrent lease) :
    engine.GenerationCurrent lease := by
  rcases (engine.apply_transition operation).generation current with stored | ⟨fresh, -⟩
  · exact stored
  · have bounded := registered.lease_generation_le found
    omega

/-- The permit a reservation opened a gate with goes to no older lease. -/
private theorem stays_ungated (registered : Registered engine)
    (found : engine.leases[lease.leaseId]? = some lease)
    (ungated : ∀ circuit, engine.circuits[(lease.candidateId, lease.routeKey)]? = some circuit →
      circuit.halfOpenLease ≠ some lease.leaseId) (circuit : CircuitRuntime)
    (stored : (engine.apply operation).circuits[(lease.candidateId, lease.routeKey)]? =
      some circuit) : circuit.halfOpenLease ≠ some lease.leaseId := by
  intro holds
  rcases (engine.apply_transition operation).gate stored holds with
    ⟨earlier, before, held⟩ | fresh
  · exact ungated earlier before held
  · exact absurd (fresh ▸ registered.lease_id_le found) (Nat.not_succ_le_self _)

/-- A replaced member binds its keys to the routes of its new record. -/
theorem replaceCandidate_boundRoute (engine : RotationEngine) (runtime : CandidateRuntime)
    (candidate : RotationCandidate) (lease : LeaseRuntime) :
    (engine.replaceCandidate runtime candidate).boundRoute lease =
      if lease.candidateId = candidate.id then candidate.routes[lease.routeKey]?
      else engine.boundRoute lease := by
  unfold boundRoute
  change ((engine.candidates.insert candidate.id _)[lease.candidateId]?).bind _ = _
  rw [BTreeMap.lookup_insert]
  split <;> rfl

/-- A route of the lease's member that was not stored before matches the reserved one
only if the operation rebinds it. -/
private theorem bound_or_rebinds (registered : Registered engine)
    (found : engine.leases[lease.leaseId]? = some lease)
    (current : (engine.apply operation).GenerationCurrent lease) {route : RotationRoute}
    (bound : (engine.apply operation).boundRoute lease = some route)
    (serves : route.serves lease.route = true) :
    engine.boundRoute lease = some route ∨ engine.Rebinds operation := by
  have before := stays_replaced registered found current
  obtain ⟨later, stored, key⟩ := Option.bind_eq_some_iff.mp bound
  by_cases upserted : ∃ candidate, operation = .upsert candidate
  · obtain ⟨candidate, rfl⟩ := upserted
    change (engine.upsert candidate).1.boundRoute lease = some route at bound
    rcases engine.upsert_cases candidate with
      ⟨error, refused⟩ | ⟨valid, ⟨runtime, member, replaced⟩ | ⟨absent, room, installed⟩⟩
    · rw [refused] at bound
      exact .inl bound
    · rw [replaced, recomputeDerived_same] at bound
      change (engine.replaceCandidate runtime candidate).boundRoute lease = some route at bound
      rw [replaceCandidate_boundRoute] at bound
      split at bound
      next own =>
        by_cases same : runtime.candidate.routes[lease.routeKey]? =
            candidate.routes[lease.routeKey]?
        · left
          rw [boundRoute, own, member, Option.bind_some, same, bound]
        · exact .inr ⟨valid, runtime, lease.leaseId, lease, route, member, found, own.symm, before,
            same, bound, serves⟩
      next => exact .inl bound
    · left
      rw [installed, recomputeCapacityLimit_same] at bound
      change ((engine.candidates.insert candidate.id _)[lease.candidateId]?).bind _ = _ at bound
      rw [BTreeMap.lookup_insert] at bound
      split at bound
      next own =>
        obtain ⟨runtime, member⟩ := registered.member before
        rw [own, absent] at member
        cases member
      next => exact bound
  · left
    obtain ⟨earlier, member, routes⟩ := apply_keepsRoutes engine operation
      (fun candidate same => upserted ⟨candidate, same⟩) _ later stored
    rw [boundRoute, member, Option.bind_some, ← routes, key]

/-- A fenced lease stays fenced under every operation that does not rebind a route. -/
theorem Fenced.step (fenced : Fenced engine lease) (registered : Registered engine)
    (found : engine.leases[lease.leaseId]? = some lease) (calm : ¬engine.Rebinds operation) :
    Fenced (engine.apply operation) lease where
  stale current route bound := by
    rw [Bool.eq_false_iff]
    intro serves
    rcases bound_or_rebinds registered found current bound serves with before | rebinds
    · have stale := fenced.stale (stays_replaced registered found current) route before
      rw [serves] at stale
      cases stale
    · exact calm rebinds
  ungated := stays_ungated registered found fenced.ungated

/-- Removing a member, or replacing its route, fences the leases it had before. -/
theorem Fences.fenced (fences : Fences lease engine operation) (registered : Registered engine)
    (found : engine.leases[lease.leaseId]? = some lease) (calm : ¬engine.Rebinds operation) :
    Fenced (engine.apply operation) lease := by
  cases operation with
  | remove candidateId =>
      obtain ⟨rfl, present⟩ := fences
      change Fenced (engine.remove lease.candidateId).1 lease
      rcases engine.remove_cases lease.candidateId with ⟨absent, -⟩ | ⟨runtime, -, removed⟩
      · rw [absent] at present
        cases present
      · rw [removed, eraseCandidate_same]
        constructor
        · intro current
          change (engine.candidateGenerations.erase lease.candidateId)[lease.candidateId]? = _
            at current
          rw [BTreeMap.lookup_erase, if_pos rfl] at current
          cases current
        · intro circuit stored
          change (engine.circuits.filter _)[(lease.candidateId, lease.routeKey)]? = _ at stored
          rw [BTreeMap.lookup_filter] at stored
          simpa using (Option.filter_eq_some_iff.mp stored).2
  | upsert candidate =>
      obtain ⟨valid, own, runtime, member, differs⟩ := fences
      have upserted : engine.apply (.upsert candidate) =
          (engine.replaceCandidate runtime candidate).recomputeDerived runtime.candidate
            candidate := by
        change (engine.upsert candidate).1 = _
        simp only [upsert, valid, member]
      constructor
      · intro current route bound
        rw [Bool.eq_false_iff]
        intro serves
        have before := stays_replaced registered found current
        rw [upserted, recomputeDerived_same] at bound
        change (engine.replaceCandidate runtime candidate).boundRoute lease = some route at bound
        rw [replaceCandidate_boundRoute, if_pos own.symm] at bound
        exact calm ⟨valid, runtime, lease.leaseId, lease, route, member, found, own, before,
          differs, bound, serves⟩
      · intro circuit stored
        rw [upserted, recomputeDerived_same] at stored
        change (engine.circuits.filter _)[(lease.candidateId, lease.routeKey)]? = _ at stored
        rw [BTreeMap.lookup_filter] at stored
        have kept := (Option.filter_eq_some_iff.mp stored).2
        simp [own, Ne.symm differs] at kept
  | _ => exact fences.elim

/-- Whether a lease is fenced is read off its reservation alone. -/
theorem Fenced.congr {later : LeaseRuntime} (fenced : Fenced engine lease)
    (same : SameReservation lease later) : Fenced engine later where
  stale := by
    unfold GenerationCurrent boundRoute
    rw [same.candidateId, same.candidateGeneration, same.routeKey, same.route]
    exact fenced.stale
  ungated := by
    rw [same.candidateId, same.routeKey, same.leaseId]
    exact fenced.ungated

theorem Fences.congr {later : LeaseRuntime} (fences : Fences lease engine operation)
    (same : SameReservation lease later) : Fences later engine operation := by
  cases operation with
  | remove candidateId =>
      unfold Fences
      rw [same.candidateId]
      exact fences
  | upsert candidate =>
      unfold Fences
      rw [same.candidateId, same.routeKey]
      exact fences
  | _ => exact fences.elim

/-- Along a run that rebinds no route a fenced lease stays fenced while it is live. -/
theorem Fenced.run (fenced : Fenced engine lease) (reachable : engine.Reachable)
    (found : engine.leases[lease.leaseId]? = some lease) {operations : List EngineOperation}
    (calm : Execution.Along apply (fun engine operation => ¬engine.Rebinds operation) engine
      operations) {later : LeaseRuntime}
    (live : (engine.runOperations operations).leases[lease.leaseId]? = some later) :
    Fenced (engine.runOperations operations) later := by
  induction operations generalizing engine lease with
  | nil =>
      rw [runOperations_nil, found] at live
      cases live
      exact fenced
  | cons operation operations ih =>
      have change := engine.apply_leaseChange operation
      have used := reachable.registered.lease_id_le found
      rw [runOperations_cons] at live
      obtain ⟨middle, stored, -⟩ := live_before (used.trans change.nextLeaseId_le) operations live
      have same := change.kept used found stored
      rw [← same.leaseId] at stored live
      exact ih ((fenced.step reachable.registered found calm.1).congr same)
        (reachable.next operation) stored calm.2 live

/-- Whatever happened after a lease was fenced, its outcome finds nothing to touch. -/
def LateOutcomesInert (operations : List EngineOperation) : Prop :=
  ∀ (earlier between later : List EngineOperation) (request : RotationRequest) (nowMs : Nat)
    (fence : EngineOperation) (initial lease : LeaseRuntime),
    operations = earlier ++ .reserve request nowMs :: between ++ fence :: later →
    (RotationEngine.default.runOperations earlier).event (.reserve request nowMs) =
      .reserved initial →
    Fences initial
      (RotationEngine.default.runOperations (earlier ++ .reserve request nowMs :: between)) fence →
    (RotationEngine.default.runOperations operations).leases[initial.leaseId]? = some lease →
    (RotationEngine.default.runOperations operations).OutcomeInert initial.leaseId lease

/-- In every run that binds no key of a live lease anew to a matching route, a lease
whose member was removed or whose route was replaced or dropped since it was reserved
gives its own permits back and does nothing else. -/
theorem late_outcomes_inert (operations : List EngineOperation)
    (calm : Execution.Along apply (fun engine operation => ¬engine.Rebinds operation)
      RotationEngine.default operations) : LateOutcomesInert operations := by
  intro earlier between later request nowMs fence initial lease split shown fences live
  subst split
  rw [runOperations_append] at live ⊢
  have calmAfter : Execution.Along apply (fun engine operation => ¬engine.Rebinds operation)
      (RotationEngine.default.runOperations (earlier ++ .reserve request nowMs :: between))
      (fence :: later) := ((Execution.along_append apply).mp calm).2
  have reachable : (RotationEngine.default.runOperations
      (earlier ++ .reserve request nowMs :: between)).Reachable := ⟨_, rfl⟩
  -- The lease was live when it was fenced, and still the reservation it was made as.
  have stored := reserved_found shown
  have used := (Reachable.next ⟨earlier, rfl⟩ (.reserve request nowMs)).registered.lease_id_le stored
  have usedFencing := used_stays used between
  have kept : ∀ pending : LeaseRuntime,
      (((RotationEngine.default.runOperations earlier).apply
        (.reserve request nowMs)).runOperations between).leases[initial.leaseId]? = some pending →
        SameReservation initial pending := fun _ => lease_kept used stored between
  rw [← runOperations_cons, ← runOperations_append] at usedFencing kept
  generalize RotationEngine.default.runOperations
    (earlier ++ .reserve request nowMs :: between) = fencing at *
  obtain ⟨pending, found, -⟩ := live_before usedFencing (fence :: later) live
  have same := kept pending found
  rw [runOperations_cons] at live
  have change := fencing.apply_leaseChange fence
  obtain ⟨middle, storedMiddle, -⟩ :=
    live_before (usedFencing.trans change.nextLeaseId_le) later live
  have sameMiddle := change.kept usedFencing found storedMiddle
  rw [← same.leaseId] at found
  have fenced := (fences.congr same).fenced reachable.registered found calmAfter.1
  have id := sameMiddle.leaseId.trans same.leaseId
  rw [← id] at live storedMiddle ⊢
  exact ((fenced.congr sameMiddle).run (reachable.next fence) storedMiddle calmAfter.2 live).inert
    live

/-- A removed member that is installed again inherits no outcome. -/
theorem late_outcomes_inert_readded : LateOutcomesInert [
    .upsert (.create "a" "r" "m"), .reserve (.create 1 "r" "m") 0, .remove "a",
    .upsert (.create "a" "r" "m")] := by
  refine late_outcomes_inert _ ⟨?_, id, id, ?_, trivial⟩
  all_goals
    rintro ⟨-, runtime, -, -, -, member, -⟩
    cases member

/-- A route that is replaced and restored lets the failure of an attempt on the first
one open a circuit. -/
theorem restored_route_outcome_counted : ¬∀ operations, LateOutcomesInert operations := by
  intro inert
  have settled := (inert _ [.upsert (.create "a" "r" "m")]
    [.beginDispatch 1 (.defaultFor 1) ⟨0, 0⟩] [.upsert (.create "a" "r" "m")]
    (.create 1 "r" "m") 0 (.upsert (.create "a" "r" "n")) _ _ rfl rfl
    ⟨rfl, rfl, _, rfl, by decide⟩ rfl).1 ⟨.notSent, .countableTransient none⟩
    (.defaultFor 1) ⟨0, 0⟩ 0 none
  have untouched := congrArg Std.ExtTreeMap.size (settled.elim (congrArg circuits) (congrArg circuits))
  revert untouched
  decide +kernel

end RotationEngine

end ZenithRelay.Scheduler.Rotation
