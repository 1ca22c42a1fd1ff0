import ZenithRelay.Scheduler.Rotation.Engine.CircuitProperties

/-!
# Votes

A request that fails votes against its circuit. Votes are counted from the last
reset of the streak: a counted success, a failure outside the window, or a circuit
that was dropped. Only the 64 largest request ids among the voters are remembered,
so a request votes again only behind 64 voters of larger ids.
-/

set_option autoImplicit false

namespace ZenithRelay.Scheduler.Rotation

/-- A counted failure of a request. -/
structure Vote where
  requestId : RequestId
  atMs : Nat
  deriving DecidableEq, Repr

/-- The votes that a failure at `nowMs` still adds to. -/
def recentVotes (votes : List Vote) (nowMs : Nat) : List Vote :=
  if votes.getLast?.any (fun last => nowMs - last.atMs > failureWindowMs) then [] else votes

/-- What a bounded set of voters still knows of all the voters. -/
structure Remembers (counted : BTreeSet Nat) (voters : List Nat) : Prop where
  voted : ∀ requestId, requestId ∈ counted → requestId ∈ voters
  room : counted.size ≤ 64
  forgotten : ∀ requestId ∈ voters, requestId ∉ counted →
    counted.size = 64 ∧ ∀ other, other ∈ counted → requestId < other

namespace Remembers

variable {counted : BTreeSet Nat} {voters : List Nat} {requestId : Nat}

theorem empty : Remembers ∅ [] where
  voted _ member := by simp at member
  room := by simp
  forgotten _ member := by cases member

/-- A first entry is larger than none that stays. -/
theorem mem_popFirst {requests : BTreeSet Nat} {first : Nat}
    (least : requests.min? = some first) {other : Nat} :
    other ∈ CircuitRuntime.popFirst requests ↔ other ∈ requests ∧ first < other := by
  obtain ⟨member, smallest⟩ := Std.ExtTreeSet.min?_eq_some_iff_mem_and_forall.mp least
  unfold CircuitRuntime.popFirst
  simp only [least, Std.ExtTreeSet.mem_erase]
  constructor
  · rintro ⟨different, present⟩
    have below := Nat.isLE_compare.mp (smallest other present)
    have distinct : first ≠ other := fun same => different (Nat.compare_eq_eq.mpr same)
    exact ⟨present, by omega⟩
  · rintro ⟨present, above⟩
    exact ⟨fun same => absurd (Nat.compare_eq_eq.mp same) (Nat.ne_of_lt above), present⟩

/-- A request that is not remembered votes, and the least voter is forgotten beyond 64. -/
theorem vote (remembers : Remembers counted voters) (fresh : requestId ∉ counted) :
    Remembers
      (if (counted.insert requestId).size > 64 then
        CircuitRuntime.popFirst (counted.insert requestId)
      else counted.insert requestId) (voters ++ [requestId]) := by
  have grown : (counted.insert requestId).size = counted.size + 1 := by
    rw [Std.ExtTreeSet.size_insert, if_neg (by simpa using fresh)]
  have inserted : ∀ other, other ∈ counted.insert requestId ↔ requestId = other ∨ other ∈ counted := by
    intro other
    rw [Std.ExtTreeSet.mem_insert, Nat.compare_eq_eq]
  have room := remembers.room
  split
  next full =>
    have present : requestId ∈ counted.insert requestId := (inserted _).mpr (.inl rfl)
    obtain ⟨first, least⟩ := Option.isSome_iff_exists.mp
      (Std.ExtTreeSet.isSome_min?_of_mem present)
    have size : (CircuitRuntime.popFirst (counted.insert requestId)).size = 64 := by
      unfold CircuitRuntime.popFirst
      simp only [least]
      rw [Std.ExtTreeSet.size_erase, if_pos (by simpa using Std.ExtTreeSet.min?_mem least)]
      omega
    refine ⟨fun other kept => ?_, size.le, fun other voter gone => ⟨size, fun kept member => ?_⟩⟩
    · rcases (inserted other).mp ((mem_popFirst least).mp kept).1 with rfl | earlier
      · simp
      · simp [remembers.voted other earlier]
    · obtain ⟨stays, above⟩ := (mem_popFirst least).mp member
      by_cases inside : other ∈ counted.insert requestId
      · -- It is the one that was forgotten now.
        have notAbove : ¬first < other := fun later => gone ((mem_popFirst least).mpr ⟨inside, later⟩)
        omega
      · have outside : other ∉ counted := fun held => inside ((inserted other).mpr (.inr held))
        have earlier : other ∈ voters := by
          rcases List.mem_append.mp voter with earlier | last
          · exact earlier
          · exact absurd ((inserted other).mpr (.inl (List.mem_singleton.mp last).symm)) inside
        have below := (remembers.forgotten other earlier outside).2
        rcases (inserted kept).mp stays with rfl | held
        · -- The new voter stays, so some older and larger one leaves.
          rcases (inserted first).mp (Std.ExtTreeSet.min?_mem least) with rfl | held
          · omega
          · have := below first held
            omega
        · exact below kept held
  next small =>
    refine ⟨fun other kept => ?_, by omega, fun other voter gone => ?_⟩
    · rcases (inserted other).mp kept with rfl | earlier
      · simp
      · simp [remembers.voted other earlier]
    · have outside : other ∉ counted := fun held => gone ((inserted other).mpr (.inr held))
      rcases List.mem_append.mp voter with earlier | last
      · have full := (remembers.forgotten other earlier outside).1
        omega
      · exact absurd ((inserted other).mpr (.inl (List.mem_singleton.mp last).symm)) gone

/-- A voter that is not remembered is behind 64 voters of larger ids. -/
theorem behind (remembers : Remembers counted voters) (voter : requestId ∈ voters)
    (fresh : requestId ∉ counted) :
    ∃ others : List Nat, others.Nodup ∧ others.length = 64 ∧
      ∀ other ∈ others, requestId < other ∧ other ∈ voters := by
  obtain ⟨full, larger⟩ := remembers.forgotten requestId voter fresh
  refine ⟨counted.toList, ?_, by rw [Std.ExtTreeSet.length_toList, full], fun other member => ?_⟩
  · refine List.Pairwise.imp ?_ (Std.ExtTreeSet.distinct_toList)
    rintro first second different rfl
    simp at different
  · have held := Std.ExtTreeSet.mem_toList.mp member
    exact ⟨larger other held, remembers.voted other held⟩

end Remembers

namespace CircuitRuntime

/-- Two circuits that count the same failures. -/
structure SameCount (circuit other : CircuitRuntime) : Prop where
  streak : other.failureStreak = circuit.failureStreak
  counted : other.countedRequests = circuit.countedRequests
  failedAt : other.lastFailureAtMs = circuit.lastFailureAtMs

theorem handBack_sameCount (circuit : CircuitRuntime) (lease : LeaseRuntime) :
    SameCount circuit (circuit.handBack lease) := by
  unfold handBack
  split
  · rcases circuit.releaseGate_cases lease.leaseId with same | same <;> rw [same] <;>
      exact ⟨rfl, rfl, rfl⟩
  · exact ⟨rfl, rfl, rfl⟩

private theorem releaseHalfOpen_sameCount (circuit : CircuitRuntime) (leaseId : LeaseId) :
    SameCount circuit (circuit.releaseHalfOpen leaseId) := by
  unfold releaseHalfOpen
  split <;> exact ⟨rfl, rfl, rfl⟩

/-- Forgetting reads nothing but what is counted. -/
theorem SameCount.forgetOldFailures {circuit other : CircuitRuntime} (same : SameCount circuit other)
    (nowMs : Nat) : SameCount (circuit.forgetOldFailures nowMs) (other.forgetOldFailures nowMs) := by
  unfold CircuitRuntime.forgetOldFailures
  rw [same.failedAt]
  split
  · exact ⟨rfl, rfl, rfl⟩
  · exact same

/-- Old failures are forgotten by a failure that votes, so a second one keeps them all. -/
private theorem forgetOldFailures_of_mem {circuit : CircuitRuntime} {nowMs : Nat} {requestId : RequestId}
    (voted : (circuit.forgetOldFailures nowMs).countedRequests.contains requestId = true) :
    circuit.forgetOldFailures nowMs = circuit := by
  unfold forgetOldFailures at voted ⊢
  split
  next old =>
    rw [if_pos old] at voted
    simp at voted
  next => rfl

/-- The count after an outcome, told by its transition. -/
structure Counts (circuit after : CircuitRuntime) (requestId : RequestId) (nowMs : Nat)
    (transition : CircuitTransition) : Prop where
  kept : transition = .none ∨ transition = .recoveryAbort → SameCount circuit after
  cleared : transition = .success → SameCount .default after
  voted : transition = .failure →
    requestId ∉ (circuit.forgetOldFailures nowMs).countedRequests ∧
      SameCount { circuit with
        failureStreak := saturatingAdd u32Max (circuit.forgetOldFailures nowMs).failureStreak 1
        countedRequests :=
          if ((circuit.forgetOldFailures nowMs).countedRequests.insert requestId).size > 64 then
            popFirst ((circuit.forgetOldFailures nowMs).countedRequests.insert requestId)
          else (circuit.forgetOldFailures nowMs).countedRequests.insert requestId
        lastFailureAtMs := some nowMs } after

theorem Counts.of_kept {circuit after : CircuitRuntime} {requestId : RequestId} {nowMs : Nat}
    {transition : CircuitTransition} (still : transition = .none ∨ transition = .recoveryAbort)
    (same : SameCount circuit after) : Counts circuit after requestId nowMs transition where
  kept _ := same
  cleared success := by rcases still with still | still <;> rw [still] at success <;> cases success
  voted failure := by rcases still with still | still <;> rw [still] at failure <;> cases failure

private theorem update_counts (circuit : CircuitRuntime) (lease : LeaseRuntime)
    (health : HealthObservation) (nowMs : Nat) :
    Counts circuit (circuit.update lease health nowMs).1 lease.requestId nowMs
      (circuit.transition lease health nowMs) := by
  have released := circuit.releaseHalfOpen_sameCount lease.leaseId
  have epoch : (circuit.releaseHalfOpen lease.leaseId).epoch = circuit.epoch := by
    unfold releaseHalfOpen
    split <;> rfl
  unfold update transition
  split
  next => exact .of_kept (.inl rfl) ⟨rfl, rfl, rfl⟩
  next =>
  dsimp only
  cases health with
  | success =>
      dsimp only [observeSuccess]
      rw [epoch]
      by_cases current : circuit.epoch = lease.circuitEpoch
      · rw [if_neg (not_not.mpr current), if_pos current]
        exact ⟨fun still => absurd still (by simp), fun _ => ⟨rfl, rfl, rfl⟩, nofun⟩
      · rw [if_pos current, if_neg current]
        refine .of_kept (.inl rfl) ?_
        split <;> exact ⟨released.streak, released.counted, released.failedAt⟩
  | countableTransient providerNotBeforeMs =>
      dsimp only [observeTransient]
      have forgot := released.forgetOldFailures nowMs
      by_cases again : (circuit.forgetOldFailures nowMs).countedRequests.contains
          lease.requestId = true
      · have still := forgetOldFailures_of_mem again
        rw [if_pos again, if_pos (forgot.counted ▸ again)]
        rw [still] at forgot
        refine .of_kept (.inl rfl) ?_
        split <;> exact ⟨forgot.streak, forgot.counted, forgot.failedAt⟩
      · rw [if_neg again, if_neg (forgot.counted ▸ again)]
        refine ⟨fun still => absurd still (by simp), nofun, fun _ => ⟨by simpa using again, ?_⟩⟩
        rw [← forgot.streak, ← forgot.counted]
        exact ⟨rfl, rfl, rfl⟩
  | busy | cancelled | clientError | localError | monitoringFailure | unknown =>
      dsimp only [observeNeutral]
      split
      · exact .of_kept (.inr rfl) ⟨released.streak, released.counted, released.failedAt⟩
      · exact .of_kept (.inl rfl) released

/-- An outcome opens a circuit for a lease on trial, or by its third vote. -/
private theorem update_open {circuit : CircuitRuntime} {lease : LeaseRuntime} {health : HealthObservation}
    {nowMs : Nat} (ordinary : lease.recovery = false) (before : circuit.state ≠ .open)
    (opened : (circuit.update lease health nowMs).1.state = .open) :
    circuitFailureThreshold ≤ (circuit.update lease health nowMs).1.failureStreak := by
  have released : (circuit.releaseHalfOpen lease.leaseId).state = circuit.state := by
    unfold releaseHalfOpen
    split <;> rfl
  unfold update at opened ⊢
  split at opened
  next => exact absurd opened before
  next current =>
  rw [if_neg current]
  rw [← released] at before
  dsimp only at opened ⊢
  cases health with
  | success =>
      dsimp only [observeSuccess] at opened
      rw [ordinary] at opened
      split at opened
      · exact absurd opened before
      · cases opened
  | countableTransient providerNotBeforeMs =>
      have kept : ((circuit.releaseHalfOpen lease.leaseId).forgetOldFailures nowMs).state =
          (circuit.releaseHalfOpen lease.leaseId).state := by
        unfold forgetOldFailures
        split <;> rfl
      dsimp only [observeTransient] at opened ⊢
      rw [ordinary] at opened ⊢
      split at opened
      next => exact absurd (kept ▸ opened) before
      next first =>
        rw [if_neg first]
        dsimp only at opened ⊢
        split at opened
        next enough => simpa using enough
        next => cases opened
  | busy | cancelled | clientError | localError | monitoringFailure | unknown =>
      dsimp only [observeNeutral] at opened
      rw [ordinary] at opened
      exact absurd opened before

end CircuitRuntime

namespace RotationEngine

instance (engine after : RotationEngine) (candidateId routeKey : String) :
    Decidable (engine.DropsCircuit after candidateId routeKey) :=
  inferInstanceAs (Decidable (_ ∧ _))

/-- The votes since the last reset of a circuit, after one more operation. -/
def votesAfter (engine : RotationEngine) (candidateId routeKey : String)
    (operation : EngineOperation) (votes : List Vote) : List Vote :=
  match engine.event operation with
  | .quiet =>
    if engine.DropsCircuit (engine.apply operation) candidateId routeKey then [] else votes
  | .settled settlement =>
    match engine.circuitTransition candidateId routeKey (.settled settlement) with
    | .success => []
    | .failure =>
      recentVotes votes settlement.nowMs ++ [⟨settlement.lease.requestId, settlement.nowMs⟩]
    | .none | .recoveryAbort => votes
  | .recoveryPolicySet _ | .reserved _ | .dispatched _ _ | .released _ => votes

/-- An engine, watched for the votes against one circuit. -/
def watch (candidateId routeKey : String) (watched : RotationEngine × List Vote)
    (operation : EngineOperation) : RotationEngine × List Vote :=
  (watched.1.apply operation, watched.1.votesAfter candidateId routeKey operation watched.2)

/-- The votes against a circuit since its last reset, at the end of a run. -/
def votes (candidateId routeKey : String) (operations : List EngineOperation) : List Vote :=
  (Execution.run (watch candidateId routeKey) (.default, []) operations).2

theorem watch_engine (candidateId routeKey : String) (watched : RotationEngine × List Vote)
    (operations : List EngineOperation) :
    (Execution.run (watch candidateId routeKey) watched operations).1 =
      watched.1.runOperations operations := by
  induction operations generalizing watched with
  | nil => rfl
  | cons operation operations ih => exact ih _

/-- No request votes twice but behind 64 voters of larger ids. -/
def VotesSeparated (votes : List Vote) : Prop :=
  ∀ front vote back, votes = front ++ vote :: back →
    vote.requestId ∈ front.map (·.requestId) →
    ∃ others : List RequestId, others.Nodup ∧ others.length = 64 ∧
      ∀ other ∈ others, vote.requestId < other ∧ other ∈ front.map (·.requestId)

/-- No vote is later than the window after the vote before it. -/
def VotesRecent (votes : List Vote) : Prop :=
  votes.IsChain fun earlier later => later.atMs - earlier.atMs ≤ failureWindowMs

/-- What a circuit stores about the votes since its last reset. -/
structure Tallies (circuit : CircuitRuntime) (votes : List Vote) : Prop where
  streak : circuit.failureStreak = min votes.length u32Max
  remembers : Remembers circuit.countedRequests (votes.map (·.requestId))
  failedAt : circuit.lastFailureAtMs = votes.getLast?.map (·.atMs)
  separated : VotesSeparated votes
  recent : VotesRecent votes

namespace Tallies

variable {circuit after : CircuitRuntime} {votes : List Vote}

theorem nothing (same : CircuitRuntime.SameCount .default after) : Tallies after [] where
  streak := same.streak
  remembers := same.counted ▸ Remembers.empty
  failedAt := same.failedAt
  separated front vote back split := by simp at split
  recent := .nil

theorem keep (tallies : Tallies circuit votes) (same : CircuitRuntime.SameCount circuit after) :
    Tallies after votes where
  streak := same.streak.trans tallies.streak
  remembers := same.counted ▸ tallies.remembers
  failedAt := same.failedAt.trans tallies.failedAt
  separated := tallies.separated
  recent := tallies.recent

/-- What is left of the votes once old failures are forgotten. -/
theorem forget (tallies : Tallies circuit votes) (nowMs : Nat) :
    (circuit.forgetOldFailures nowMs).failureStreak =
        min (recentVotes votes nowMs).length u32Max ∧
      Remembers (circuit.forgetOldFailures nowMs).countedRequests
        ((recentVotes votes nowMs).map (·.requestId)) ∧
      VotesSeparated (recentVotes votes nowMs) ∧ VotesRecent (recentVotes votes nowMs) ∧
      ∀ last, (recentVotes votes nowMs).getLast? = some last →
        nowMs - last.atMs ≤ failureWindowMs := by
  unfold CircuitRuntime.forgetOldFailures recentVotes
  rw [tallies.failedAt, Option.any_map]
  by_cases old : votes.getLast?.any (fun last => nowMs - last.atMs > failureWindowMs) = true
  · rw [if_pos old, if_pos old]
    exact ⟨rfl, .empty, fun front vote back split => by simp at split, .nil, nofun⟩
  · rw [if_neg old, if_neg old]
    refine ⟨tallies.streak, tallies.remembers, tallies.separated, tallies.recent, ?_⟩
    intro last final
    simpa [final] using old

theorem vote (tallies : Tallies circuit votes) {requestId : RequestId} {nowMs : Nat}
    (counts : CircuitRuntime.Counts circuit after requestId nowMs .failure) :
    Tallies after (recentVotes votes nowMs ++ [⟨requestId, nowMs⟩]) := by
  obtain ⟨fresh, same⟩ := counts.voted rfl
  obtain ⟨streak, remembers, separated, recent, within⟩ := tallies.forget nowMs
  refine ⟨?_, ?_, ?_, ?_, ?_⟩
  · rw [same.streak]
    dsimp only
    rw [streak, List.length_append]
    simp only [saturatingAdd, List.length_singleton]
    omega
  · rw [same.counted, List.map_append]
    exact remembers.vote fresh
  · rw [same.failedAt, List.getLast?_concat]
    rfl
  · intro front vote back split repeated
    rcases List.eq_nil_or_concat back with rfl | ⟨earlier, last, rfl⟩
    · -- The vote is the last one, and its request is not remembered.
      obtain ⟨rfl, final⟩ := List.append_inj' split rfl
      obtain rfl := List.singleton_inj.mp final
      exact remembers.behind repeated fresh
    · have shorter : recentVotes votes nowMs = front ++ vote :: earlier := by
        rw [List.concat_eq_append, ← List.cons_append, ← List.append_assoc] at split
        exact (List.append_inj' split rfl).1
      exact separated front vote earlier shorter repeated
  · refine List.isChain_append.mpr ⟨recent, .singleton _, ?_⟩
    intro last final first start
    obtain rfl : first = ⟨requestId, nowMs⟩ := by simpa using start.symm
    exact within last final

end Tallies

/-- One operation keeps the tally of a circuit and its votes together. -/
theorem Tallies.step {engine : RotationEngine} {candidateId routeKey : String} {votes : List Vote}
    (tallies : Tallies (engine.circuitRuntime candidateId routeKey) votes)
    (operation : EngineOperation) :
    Tallies ((engine.apply operation).circuitRuntime candidateId routeKey)
      (engine.votesAfter candidateId routeKey operation votes) := by
  have emptied : engine.DropsCircuit (engine.apply operation) candidateId routeKey →
      Tallies ((engine.apply operation).circuitRuntime candidateId routeKey) [] := by
    intro drops
    refine .nothing ?_
    unfold circuitRuntime
    rw [Option.isNone_iff_eq_none.mp drops.2]
    exact ⟨rfl, rfl, rfl⟩
  have unmoved : engine.circuitTransition candidateId routeKey (engine.event operation) = .none →
      CircuitRuntime.SameCount (engine.circuitRuntime candidateId routeKey)
        ((engine.apply operation).circuitRuntime candidateId routeKey) →
      Tallies ((engine.apply operation).circuitRuntime candidateId routeKey)
        (engine.votesAfter candidateId routeKey operation votes) := by
    intro still same
    unfold votesAfter
    cases event : engine.event operation with
    | quiet =>
        dsimp only
        split
        next drops => exact emptied drops
        next => exact tallies.keep same
    | settled settlement =>
        rw [event] at still
        dsimp only
        rw [still]
        exact tallies.keep same
    | recoveryPolicySet _ | reserved _ | dispatched _ _ | released _ => exact tallies.keep same
  cases (engine.apply_transition operation).circuitCases candidateId routeKey with
  | dropped drops quiet =>
      unfold votesAfter
      rw [quiet]
      dsimp only
      rw [if_pos drops]
      exact emptied drops
  | same still left => exact unmoved still (left ▸ ⟨rfl, rfl, rfl⟩)
  | tried lease permit reserved left =>
      refine unmoved (by rw [reserved]; rfl) ?_
      rw [left]
      exact ⟨rfl, rfl, rfl⟩
  | handedBack lease ended still left =>
      refine unmoved still ?_
      rw [left]
      exact CircuitRuntime.handBack_sameCount _ _
  | settled settlement event moves left =>
      have returned := tallies.keep (CircuitRuntime.handBack_sameCount _ settlement.lease)
      have counts := CircuitRuntime.update_counts
        ((engine.circuitRuntime candidateId routeKey).handBack settlement.lease) settlement.lease
        settlement.health settlement.nowMs
      rw [CircuitRuntime.transition_handBack] at counts
      unfold votesAfter
      rw [event] at moves ⊢
      dsimp only
      rw [left, moves]
      cases transition : (engine.circuitRuntime candidateId routeKey).transition settlement.lease
          settlement.health settlement.nowMs with
      | success => exact .nothing (counts.cleared transition)
      | failure =>
          rw [transition] at counts
          exact returned.vote counts
      | none => exact returned.keep (counts.kept (.inl transition))
      | recoveryAbort => exact returned.keep (counts.kept (.inr transition))

/-- Along every run, a circuit and its votes. -/
theorem votes_tallies (candidateId routeKey : String) (operations : List EngineOperation) :
    Tallies ((RotationEngine.default.runOperations operations).circuitRuntime candidateId routeKey)
      (votes candidateId routeKey operations) := by
  have start : Tallies (RotationEngine.default.circuitRuntime candidateId routeKey) [] :=
    .nothing ⟨rfl, rfl, rfl⟩
  have whole := @Execution.run_invariant _ _ (watch candidateId routeKey)
    (fun watched => Tallies (watched.1.circuitRuntime candidateId routeKey) watched.2)
    (fun watched operation tallies => tallies.step operation) (.default, []) start operations
  rwa [watch_engine] at whole

/-- Three votes come from three requests: a repeated one would have 64 others before it. -/
private theorem VotesSeparated.three_voters {votes : List Vote} (separated : VotesSeparated votes)
    (enough : circuitFailureThreshold ≤ votes.length) :
    ∃ requests : List RequestId, requests.Nodup ∧ requests.length = circuitFailureThreshold ∧
      ∀ requestId ∈ requests, requestId ∈ votes.map (·.requestId) := by
  by_cases distinct : (votes.map (·.requestId)).Nodup
  · refine ⟨(votes.map (·.requestId)).take circuitFailureThreshold,
      distinct.sublist (List.take_sublist _ _), ?_, fun requestId => List.mem_of_mem_take⟩
    rw [List.length_take, List.length_map, min_eq_left enough]
  · obtain ⟨front, vote, back, split, repeated⟩ : ∃ front vote back,
        votes = front ++ vote :: back ∧ vote.requestId ∈ front.map (·.requestId) := by
      by_contra none
      push Not at none
      refine distinct ?_
      clear enough separated distinct
      induction votes using List.reverseRecOn with
      | nil => exact .nil
      | append_singleton earlier last ih =>
          rw [List.map_append, List.map_singleton]
          refine List.Nodup.append (ih fun front vote back split => ?_) (List.nodup_singleton _)
            (List.disjoint_singleton.mpr (none earlier last [] rfl))
          exact none front vote (back ++ [last]) (by rw [split]; simp)
    obtain ⟨others, nodup, length, larger⟩ := separated front vote back split repeated
    refine ⟨others.take circuitFailureThreshold, nodup.sublist (List.take_sublist _ _), ?_, ?_⟩
    · rw [List.length_take, length]
      rfl
    · intro requestId member
      rw [split, List.map_append]
      exact List.mem_append_left _ (larger requestId (List.mem_of_mem_take member)).2

/-- An operation opens a circuit by ending a trial, or by the third vote of the streak. -/
private theorem opened_cases {engine : RotationEngine} {candidateId routeKey : String}
    (operation : EngineOperation) (before : (engine.circuitRuntime candidateId routeKey).state ≠ .open)
    (opened : ((engine.apply operation).circuitRuntime candidateId routeKey).state = .open) :
    (∃ lease, (engine.event operation).ended = some lease ∧ lease.recovery = true) ∨
      circuitFailureThreshold ≤
        ((engine.apply operation).circuitRuntime candidateId routeKey).failureStreak := by
  have ordinaryLeft : ∀ {lease : LeaseRuntime}, lease.recovery = false →
      (engine.circuitRuntime candidateId routeKey).handBack lease =
        engine.circuitRuntime candidateId routeKey := by
    intro lease ordinary
    unfold CircuitRuntime.handBack
    rw [ordinary]
    rfl
  cases (engine.apply_transition operation).circuitCases candidateId routeKey with
  | dropped drops quiet =>
      unfold circuitRuntime at opened
      rw [Option.isNone_iff_eq_none.mp drops.2] at opened
      cases opened
  | same still left => exact absurd (left ▸ opened) before
  | tried lease permit reserved left =>
      rw [left] at opened
      cases opened
  | handedBack lease ended still left =>
      cases recovery : lease.recovery with
      | true => exact .inl ⟨lease, ended, recovery⟩
      | false => exact absurd ((left.trans (ordinaryLeft recovery)) ▸ opened) before
  | settled settlement event moves left =>
      cases recovery : settlement.lease.recovery with
      | true => exact .inl ⟨settlement.lease, by rw [event]; rfl, recovery⟩
      | false =>
          rw [left, ordinaryLeft recovery] at opened ⊢
          exact .inr (CircuitRuntime.update_open recovery before opened)

/-- One request, one vote, as far as 64 voters of larger ids are remembered: the streak counts
the votes of the window, a request votes again only behind 64 larger ones, and without a trial a
circuit opens only after three distinct requests voted. -/
theorem circuit_votes (operations : List EngineOperation) (candidateId routeKey : String) :
    let engine := RotationEngine.default.runOperations operations
    (engine.circuitRuntime candidateId routeKey).failureStreak =
        min (votes candidateId routeKey operations).length u32Max ∧
      VotesSeparated (votes candidateId routeKey operations) ∧
      VotesRecent (votes candidateId routeKey operations) ∧
      ∀ operation, (engine.circuitRuntime candidateId routeKey).state ≠ .open →
        ((engine.apply operation).circuitRuntime candidateId routeKey).state = .open →
        (∃ lease, (engine.event operation).ended = some lease ∧ lease.recovery = true) ∨
          ∃ requests : List RequestId, requests.Nodup ∧ requests.length = circuitFailureThreshold ∧
            ∀ requestId ∈ requests, requestId ∈
              (votes candidateId routeKey (operations ++ [operation])).map (·.requestId) := by
  have tallies := votes_tallies candidateId routeKey operations
  refine ⟨tallies.streak, tallies.separated, tallies.recent, fun operation before opened => ?_⟩
  refine (opened_cases operation before opened).imp_right fun third => ?_
  have later := votes_tallies candidateId routeKey (operations ++ [operation])
  rw [runOperations_append] at later
  refine later.separated.three_voters ?_
  have streak := later.streak
  rw [runOperations_cons, runOperations_nil] at streak
  omega

/-- Request 1 holds two leases, and 64 others hold one each. -/
def crowd : List (RequestId × LeaseId) :=
  (1, 1) :: (1, 2) :: (List.range 64).map fun index => (index + 2, index + 3)

/-- The outcome of one lease of the crowd. -/
def crowdFailure (entry : RequestId × LeaseId) : EngineOperation :=
  .settle entry.2 ⟨.notSent, .countableTransient none⟩ (.defaultFor entry.1) ⟨0, 0⟩ 0

/-- All of them are dispatched, and all fail but the second lease of request 1. -/
def crowdRun : List EngineOperation :=
  .upsert (.create "a" "r" "m") :: crowd.map (fun entry => .reserve (.create entry.1 "r" "m") 0) ++
    crowd.map (fun entry => .beginDispatch entry.2 (.defaultFor entry.1) ⟨0, 0⟩) ++
    (crowd.filter (·.2 ≠ 2)).map crowdFailure

/-- The second lease of request 1 after its first one failed. -/
def crowdLease : LeaseRuntime :=
  ⟨2, "a", 1, 1, "r", ⟨"m", .text⟩, "a", false, false, some 1, 0, 0, .unknown, .ready, some .ready⟩

/-- The votes of the run, and what the second lease of request 1 will be settled as. -/
theorem crowdRun_ends :
    (votes "a" "r" crowdRun).map (·.requestId) = (List.range 65).map (· + 1) ∧
      (RotationEngine.default.runOperations crowdRun).event (crowdFailure (1, 2)) =
        .settled ⟨crowdLease, .countableTransient none, 0, none⟩ ∧
      (RotationEngine.default.runOperations crowdRun).observationCurrent crowdLease = true ∧
      ((RotationEngine.default.runOperations crowdRun).circuitRuntime "a" "r").incident = 0 := by
  have engine := watch_engine "a" "r" (.default, []) crowdRun
  unfold votes
  rw [← engine]
  decide +kernel

/-- With 65 voters, the one of least id is not remembered. -/
private theorem crowdRun_forgets :
    1 ∉ ((RotationEngine.default.runOperations crowdRun).circuitRuntime "a" "r").countedRequests := by
  have remembers := (votes_tallies "a" "r" crowdRun).remembers
  rw [crowdRun_ends.1] at remembers
  intro held
  obtain ⟨requestId, voter, gone⟩ : ∃ requestId ∈ (List.range 65).map (· + 1), requestId ∉
      ((RotationEngine.default.runOperations crowdRun).circuitRuntime "a" "r").countedRequests := by
    by_contra all
    push Not at all
    have distinct : ((List.range 65).map (· + 1)).Nodup := by decide
    have counted := (List.subperm_of_subset distinct fun requestId voter =>
      Std.ExtTreeSet.mem_toList.mpr (all requestId voter)).length_le
    rw [Std.ExtTreeSet.length_toList, List.length_map, List.length_range] at counted
    have room := remembers.room
    omega
  have below := (remembers.forgotten requestId voter gone).2 1 held
  obtain ⟨index, -, rfl⟩ := List.mem_map.mp voter
  omega

private theorem votes_concat (operations : List EngineOperation) (operation : EngineOperation)
    (candidateId routeKey : String) :
    votes candidateId routeKey (operations ++ [operation]) =
      (RotationEngine.default.runOperations operations).votesAfter candidateId routeKey operation
        (votes candidateId routeKey operations) := by
  unfold votes
  rw [Execution.run_append, Execution.run_cons, Execution.run_nil]
  exact congrArg (fun engine => votesAfter engine candidateId routeKey operation _)
    (watch_engine candidateId routeKey (.default, []) operations)

/-- The failure of a request that is not remembered is one more vote. -/
private theorem votes_concat_failure {operations : List EngineOperation} {operation : EngineOperation}
    {candidateId routeKey : String} {settlement : Settlement} {deadline : Option Nat}
    (event : (RotationEngine.default.runOperations operations).event operation = .settled settlement)
    (own : settlement.lease.candidateId = candidateId ∧ settlement.lease.routeKey = routeKey ∧
      (RotationEngine.default.runOperations operations).observationCurrent settlement.lease)
    (incident : ((RotationEngine.default.runOperations operations).circuitRuntime candidateId
      routeKey).incident = settlement.lease.circuitIncident)
    (failed : settlement.health = .countableTransient deadline)
    (gone : settlement.lease.requestId ∉ ((RotationEngine.default.runOperations
      operations).circuitRuntime candidateId routeKey).countedRequests) :
    votes candidateId routeKey (operations ++ [operation]) =
      recentVotes (votes candidateId routeKey operations) settlement.nowMs ++
        [⟨settlement.lease.requestId, settlement.nowMs⟩] := by
  have stillGone : (((RotationEngine.default.runOperations operations).circuitRuntime candidateId
      routeKey).forgetOldFailures settlement.nowMs).countedRequests.contains
        settlement.lease.requestId = false := by
    unfold CircuitRuntime.forgetOldFailures
    split
    · simp
    · exact Bool.eq_false_iff.mpr fun held => gone (by simpa using held)
  have moves : (RotationEngine.default.runOperations operations).circuitTransition candidateId
      routeKey ((RotationEngine.default.runOperations operations).event operation) = .failure := by
    rw [event]
    unfold circuitTransition CircuitRuntime.transition
    dsimp only
    rw [if_pos own, if_neg (not_not.mpr incident), failed]
    dsimp only
    rw [if_neg (Bool.eq_false_iff.mp stillGone)]
  rw [votes_concat]
  unfold votesAfter
  rw [event] at moves ⊢
  dsimp only
  rw [moves]

/-- So the second lease of request 1 votes again. -/
theorem request_votes_twice :
    ¬∀ operations candidateId routeKey,
      ((votes candidateId routeKey operations).map (·.requestId)).Nodup := by
  intro once
  have distinct := once (crowdRun ++ [crowdFailure (1, 2)]) "a" "r"
  obtain ⟨voters, event, current, incident⟩ := crowdRun_ends
  have again := votes_concat_failure event ⟨rfl, rfl, current⟩ incident rfl crowdRun_forgets
  dsimp only [crowdLease] at again
  have recent : recentVotes (votes "a" "r" crowdRun) 0 = votes "a" "r" crowdRun := by
    simp [recentVotes]
  rw [again, recent, List.map_append, voters] at distinct
  revert distinct
  decide

end RotationEngine

end ZenithRelay.Scheduler.Rotation
