import ZenithRelay.Foundations.Execution
import ZenithRelay.Protocol.Adapter.StoreInsertion

/-!
# Continuation stores stay within their limits

The byte account is exact along every run whose totals a machine word holds, and
what a lookup returns was stored by the candidate that asks for it.
-/

set_option autoImplicit false

namespace ZenithRelay.Protocol.Adapter

open BoundedStateStore

section Calls

variable {State : Type} [DecidableEq State]

/-- The state that the call would store. -/
def StoreCall.stores (state : State) : StoreCall State → Prop
  | .insert _ _ _ offered _ _ => offered = state
  | .insertIfStored _ _ _ offered _ => offered = state
  | _ => False

/-- What the call would store fits the account. -/
def StoreCall.fitsWord (jsonLength : State → Option Nat) (store : BoundedStateStore State)
    (call : StoreCall State) : Prop :=
  ∀ state, call.stores state → FitsWord jsonLength store state

/-- A conditional insertion is refused by what it finds, or inserts after pruning. -/
theorem insertIfStored_cases (jsonLength : State → Option Nat) (store : BoundedStateStore State)
    (localKeyId responseId candidateId : String) (state : State) (nowMs : Nat) :
    ((∃ stored, (store.prune nowMs).entries[(localKeyId, responseId)]? = some stored ∧
        (stored.candidateId ≠ candidateId ∨ stored.state ≠ state)) ∧
      AdapterContinuationStore.insertIfStored jsonLength store localKeyId responseId candidateId
        state nowMs = (store.prune nowMs, false)) ∨
    ((∀ stored, (store.prune nowMs).entries[(localKeyId, responseId)]? = some stored →
        stored.candidateId = candidateId ∧ stored.state = state) ∧
      AdapterContinuationStore.insertIfStored jsonLength store localKeyId responseId candidateId
        state nowMs = (store.prune nowMs).insert jsonLength localKeyId responseId candidateId state
          nowMs fun _ _ => false) := by
  rw [AdapterContinuationStore.insertIfStored, BoundedStateStore.get]
  simp only
  cases found : (store.prune nowMs).entries[(localKeyId, responseId)]? with
  | none => exact Or.inr ⟨fun _ absent => absurd absent (by simp), by simp⟩
  | some stored =>
    by_cases differs : stored.candidateId ≠ candidateId ∨ stored.state ≠ state
    · exact Or.inl ⟨⟨stored, rfl, differs⟩, if_pos (by simpa using differs)⟩
    · rw [not_or, not_not, not_not] at differs
      refine Or.inr ⟨fun other same => ?_, ?_⟩
      · cases same
        exact differs
      · simp [differs.1, differs.2]

/-- A property of stores that pruning and insertion keep is kept by every call. -/
theorem StoreCall.apply_keeps {jsonLength : State → Option Nat}
    (invariant : BoundedStateStore State → Prop) {store : BoundedStateStore State}
    (call : StoreCall State) (holds : invariant store)
    (pruned : ∀ nowMs, invariant (store.prune nowMs))
    (inserted : ∀ localKeyId responseId candidateId state nowMs superseding before,
      (before = store ∨ ∃ nowMs, before = store.prune nowMs) →
      call.stores state → invariant before →
      invariant (before.insert jsonLength localKeyId responseId candidateId state nowMs
        superseding).1) :
    invariant (call.apply jsonLength store) := by
  cases call with
  | prune nowMs => exact pruned nowMs
  | get localKeyId responseId nowMs => exact pruned nowMs
  | insert localKeyId responseId candidateId state nowMs superseding =>
    exact inserted localKeyId responseId candidateId state nowMs superseding store (Or.inl rfl) rfl
      holds
  | insertIfStored localKeyId responseId candidateId state nowMs =>
    rw [StoreCall.apply]
    rcases insertIfStored_cases jsonLength store localKeyId responseId candidateId state nowMs with
      ⟨-, outcome⟩ | ⟨-, outcome⟩
    · rw [outcome]
      exact pruned nowMs
    · rw [outcome]
      exact inserted localKeyId responseId candidateId state nowMs _ _ (Or.inr ⟨nowMs, rfl⟩) rfl
        (pruned nowMs)

theorem StoreCall.apply_within {jsonLength : State → Option Nat} (store : BoundedStateStore State)
    (call : StoreCall State) (within : store.Within jsonLength) :
    (call.apply jsonLength store).Within jsonLength :=
  call.apply_keeps (Within jsonLength) within (prune_within within)
    fun localKeyId responseId candidateId state nowMs superseding _ _ _ before =>
      insert_within before localKeyId responseId candidateId state nowMs superseding

private theorem StoreCall.apply_accounted {jsonLength : State → Option Nat}
    (store : BoundedStateStore State) (call : StoreCall State) (accounted : store.Accounted)
    (fits : call.fitsWord jsonLength store) : (call.apply jsonLength store).Accounted := by
  refine call.apply_keeps Accounted accounted (prune_accounted accounted) ?_
  intro localKeyId responseId candidateId state nowMs superseding before reached own account
  have word : FitsWord jsonLength store state := fits state own
  rcases reached with rfl | ⟨earlier, rfl⟩
  · exact insert_accounted account localKeyId responseId candidateId word nowMs superseding
  · exact insert_accounted account localKeyId responseId candidateId (word.prune earlier) nowMs
      superseding

/-- The call offers this state of this candidate under this key. -/
def StoreCall.offers (key : ReplayKey) (candidateId : String) (state : State) :
    StoreCall State → Prop
  | .insert localKeyId responseId candidate offered _ _ =>
    key = (localKeyId, responseId) ∧ candidateId = candidate ∧ state = offered
  | .insertIfStored localKeyId responseId candidate offered _ =>
    key = (localKeyId, responseId) ∧ candidateId = candidate ∧ state = offered
  | _ => False

/-- An entry after a call was there before, or the call offered it. -/
private theorem StoreCall.apply_origin {jsonLength : State → Option Nat} {store : BoundedStateStore State}
    (covered : store.Covered) {call : StoreCall State} {key : ReplayKey} {stored : StoredState State}
    (found : (call.apply jsonLength store).entries[key]? = some stored) :
    call.offers key stored.candidateId stored.state ∨
      ∃ before, store.entries[key]? = some before ∧
        stored.state = before.state ∧ stored.candidateId = before.candidateId := by
  have pruned {nowMs : Nat} {kept : StoredState State}
      (present : (store.prune nowMs).entries[key]? = some kept) :
      store.entries[key]? = some kept := by
    rw [lookup_prune] at present
    exact (Option.filter_eq_some_iff.mp present).1
  cases call with
  | prune nowMs => exact Or.inr ⟨stored, pruned found, rfl, rfl⟩
  | get localKeyId responseId nowMs => exact Or.inr ⟨stored, pruned found, rfl, rfl⟩
  | insert localKeyId responseId candidateId state nowMs superseding =>
    rcases insert_origin covered found with ⟨same, offered, candidate⟩ | ⟨before, present, kept⟩
    · exact Or.inl ⟨same, candidate, offered⟩
    · exact Or.inr ⟨before, pruned present, kept⟩
  | insertIfStored localKeyId responseId candidateId state nowMs =>
    rw [StoreCall.apply] at found
    rcases insertIfStored_cases jsonLength store localKeyId responseId candidateId state nowMs with
      ⟨-, refused⟩ | ⟨-, inserted⟩
    · rw [refused] at found
      exact Or.inr ⟨stored, pruned found, rfl, rfl⟩
    · rw [inserted] at found
      rcases insert_origin (prune_covered covered nowMs) found with
        ⟨same, offered, candidate⟩ | ⟨before, present, kept⟩
      · exact Or.inl ⟨same, candidate, offered⟩
      · rw [lookup_prune] at present
        exact Or.inr ⟨before, pruned (Option.filter_eq_some_iff.mp present).1, kept⟩

open Execution

theorem run_within (jsonLength : State → Option Nat) (limits : StoreLimits)
    (calls : List (StoreCall State)) :
    (run (StoreCall.apply jsonLength) (empty limits) calls).Within jsonLength :=
  run_invariant (Within jsonLength) StoreCall.apply_within (empty_within jsonLength limits) calls

/-- Under a byte limit below the largest machine word every run fits the account. -/
private theorem fitsWord_of_small {jsonLength : State → Option Nat} {limits : StoreLimits}
    (small : limits.maxTotalBytes < usizeMax) (calls : List (StoreCall State)) :
    Along (StoreCall.apply jsonLength) (fun store call => call.fitsWord jsonLength store)
      (empty limits) calls := by
  refine Along.mono ?_ (Along.of_invariant
    (fun store : BoundedStateStore State => store.Within jsonLength ∧ store.limits = limits)
    ?_ ⟨empty_within jsonLength limits, rfl⟩ calls)
  · rintro store call ⟨-, rfl⟩ state -
    exact Or.inl small
  · rintro store call ⟨within, rfl⟩
    refine ⟨StoreCall.apply_within store call within, ?_⟩
    exact call.apply_keeps (·.limits = store.limits) rfl (fun _ => rfl)
      fun _ _ _ _ _ _ _ _ _ same => (insert_limits ..).trans same

/-- Every entry of a reached store was offered by a call. -/
private theorem run_origin (jsonLength : State → Option Nat) (limits : StoreLimits)
    (calls : List (StoreCall State)) {key : ReplayKey} {stored : StoredState State}
    (found : (run (StoreCall.apply jsonLength) (empty limits) calls).entries[key]? = some stored) :
    ∃ call ∈ calls, call.offers key stored.candidateId stored.state := by
  induction calls using List.reverseRecOn generalizing stored with
  | nil => simp [empty] at found
  | append_singleton earlier last ih =>
    rw [run_append] at found
    rcases StoreCall.apply_origin (run_within jsonLength limits earlier).covered found with
      offered | ⟨before, present, state, candidate⟩
    · exact ⟨last, by simp, offered⟩
    · obtain ⟨call, member, offered⟩ := ih present
      exact ⟨call, by simp [member], by rwa [state, candidate]⟩

/-- What every conditional insertion into the store does. -/
structure ConditionalInsertLaws (store : BoundedStateStore State)
    (localKeyId responseId candidateId : String) (state : State) (nowMs : Nat)
    (result : BoundedStateStore State × Bool) : Prop where
  refused : result.2 = false → result.1 = store.prune nowMs
  readable : result.2 = true → ∃ stored, (result.1.get localKeyId responseId nowMs).2 = some stored ∧
    stored.state = state ∧ stored.candidateId = candidateId
  /-- No unexpired entry changes its state or candidate. -/
  kept : ∀ (key : ReplayKey) (before after : StoredState State),
    (store.prune nowMs).entries[key]? = some before → result.1.entries[key]? = some after →
      after.state = before.state ∧ after.candidateId = before.candidateId

private theorem insertIfStored_laws {jsonLength : State → Option Nat} {store : BoundedStateStore State}
    (covered : store.Covered) (localKeyId responseId candidateId : String) (state : State)
    (nowMs : Nat) :
    ConditionalInsertLaws store localKeyId responseId candidateId state nowMs
      (AdapterContinuationStore.insertIfStored jsonLength store localKeyId responseId candidateId
        state nowMs) := by
  rcases insertIfStored_cases jsonLength store localKeyId responseId candidateId state nowMs with
    ⟨-, refused⟩ | ⟨agrees, inserted⟩
  · rw [refused]
    refine ⟨fun _ => rfl, fun ok => absurd ok (by simp), ?_⟩
    intro key before after present found
    cases present.symm.trans found
    exact ⟨rfl, rfl⟩
  · rw [inserted]
    have laws := @insert_laws State jsonLength (store.prune nowMs)
      (prune_covered covered nowMs) localKeyId responseId candidateId state nowMs
      fun _ _ => false
    refine ⟨fun failed => (laws.refused failed).trans (prune_prune store nowMs),
      laws.readable, ?_⟩
    intro key before after present found
    rcases insert_origin (prune_covered covered nowMs) found with
      ⟨rfl, offered, candidate⟩ | ⟨earlier, kept, same⟩
    · obtain ⟨sameCandidate, sameState⟩ := agrees before present
      exact ⟨offered.trans sameState.symm, candidate.trans sameCandidate.symm⟩
    · rw [prune_prune store nowMs] at kept
      cases present.symm.trans kept
      exact same

end Calls

section Continuations

variable {Turns : Type} [DecidableEq Turns]

/-- Entries of the local key whose history key is the requested id. -/
def AliasOf (store : BoundedStateStore (AdapterContinuationState Turns))
    (localKeyId responseId : String) (id : String)
    (stored : StoredState (AdapterContinuationState Turns)) : Prop :=
  store.entries[(localKeyId, id)]? = some stored ∧ stored.state.historyKey = some responseId

/-- What every lookup in the store returns; `pruned` is what the clock left of it. -/
structure LookupLaws (pruned : BoundedStateStore (AdapterContinuationState Turns))
    (localKeyId responseId candidateId : String) (state : AdapterContinuationState Turns) :
    Prop where
  own : ∃ id stored, pruned.entries[(localKeyId, id)]? = some stored ∧
    (id = responseId ∨ AliasOf pruned localKeyId responseId id stored) ∧
    stored.candidateId = candidateId ∧ stored.state = state
  agreed : pruned.entries[(localKeyId, responseId)]? = none → ∀ id stored,
    AliasOf pruned localKeyId responseId id stored →
      stored.candidateId = candidateId ∧ stored.state = state

private theorem lookup_ok {store : BoundedStateStore (AdapterContinuationState Turns)}
    {localKeyId responseId : String} {found : StoredState (AdapterContinuationState Turns)}
    (accepted : AdapterContinuationStore.lookup store localKeyId responseId = .ok found) :
    (∃ id, store.entries[(localKeyId, id)]? = some found ∧
      (id = responseId ∨ AliasOf store localKeyId responseId id found)) ∧
    (store.entries[(localKeyId, responseId)]? = none → ∀ id stored,
      AliasOf store localKeyId responseId id stored →
        stored.candidateId = found.candidateId ∧ stored.state = found.state) := by
  rw [AdapterContinuationStore.lookup] at accepted
  cases direct : store.entries[(localKeyId, responseId)]? with
  | some stored =>
    simp only [direct, Except.ok.injEq] at accepted
    subst accepted
    exact ⟨⟨responseId, direct, Or.inl rfl⟩, fun absent => by cases absent⟩
  | none =>
    simp only [direct] at accepted
    have isAlias {entry : ReplayKey × StoredState (AdapterContinuationState Turns)} :
        entry ∈ (store.entries.toList.filter fun entry =>
          entry.1.1 == localKeyId && entry.2.state.historyKey == some responseId) ↔
        ∃ id, entry = ((localKeyId, id), entry.2) ∧
          AliasOf store localKeyId responseId id entry.2 := by
      obtain ⟨⟨local_, id⟩, stored⟩ := entry
      simp only [List.mem_filter, Bool.and_eq_true, beq_iff_eq, BTreeMap.mem_toList_iff, AliasOf,
        Prod.mk.injEq]
      constructor
      · rintro ⟨present, rfl, key⟩
        exact ⟨id, ⟨⟨rfl, rfl⟩, trivial⟩, present, key⟩
      · rintro ⟨_, ⟨⟨rfl, rfl⟩, -⟩, present, key⟩
        exact ⟨present, rfl, key⟩
    generalize (store.entries.toList.filter fun entry =>
      entry.1.1 == localKeyId && entry.2.state.historyKey == some responseId) = aliases
      at accepted isAlias
    cases aliases with
    | nil => cases accepted
    | cons first others =>
      simp only at accepted
      split at accepted
      next => cases accepted
      next agree =>
        obtain rfl : first.2 = found := by simpa using accepted
        obtain ⟨id, -, own⟩ := isAlias.mp (@List.mem_cons_self _ first others)
        refine ⟨⟨id, own.1, Or.inr own⟩, fun _ other stored shared => ?_⟩
        have member := (@isAlias ((localKeyId, other), stored)).mpr ⟨other, rfl, shared⟩
        rcases List.mem_cons.mp member with same | later
        · rw [← same]
          exact ⟨rfl, rfl⟩
        · by_contra differs
          apply agree
          refine List.any_eq_true.mpr ⟨_, later, ?_⟩
          have either := not_and_or.mp differs
          simpa using either

private theorem get_laws {store : BoundedStateStore (AdapterContinuationState Turns)}
    {localKeyId responseId candidateId : String} {nowMs : Nat}
    {state : AdapterContinuationState Turns}
    (accepted : (AdapterContinuationStore.get store localKeyId responseId candidateId nowMs).2 =
      .ok state) :
    LookupLaws (store.prune nowMs) localKeyId responseId candidateId state := by
  rw [AdapterContinuationStore.get] at accepted
  cases found : AdapterContinuationStore.lookup (store.prune nowMs) localKeyId responseId with
  | error error => simp [found] at accepted
  | ok stored =>
    simp only [found] at accepted
    split at accepted
    next => cases accepted
    next same =>
      obtain rfl : stored.state = state := by simpa using accepted
      obtain rfl : stored.candidateId = candidateId := by simpa using same
      obtain ⟨⟨id, present, reason⟩, agreed⟩ := lookup_ok found
      exact ⟨⟨id, stored, present, reason, rfl, rfl⟩, agreed⟩

end Continuations

/-- A native replay is returned only to the candidate that stored it. -/
theorem native_get {Replay : Type} {store : BoundedStateStore Replay}
    {localKeyId responseId candidateId : String} {nowMs : Nat} {state : Replay}
    (found : (NativeResponsesReplayStore.get store localKeyId responseId candidateId nowMs).2 =
      some state) :
    ∃ stored, (store.prune nowMs).entries[(localKeyId, responseId)]? = some stored ∧
      stored.candidateId = candidateId ∧ stored.state = state := by
  rw [NativeResponsesReplayStore.get, BoundedStateStore.get] at found
  obtain ⟨stored, kept, rfl⟩ := Option.map_eq_some_iff.mp found
  obtain ⟨present, own⟩ := Option.filter_eq_some_iff.mp kept
  exact ⟨stored, present, by simpa using own, rfl⟩

open Execution

/-- The stores' laws over every run of calls: the limits, insertion, eviction and
ownership always, an exact byte account while its sums fit a machine word. -/
theorem stores_bounded_and_owned (limits : StoreLimits) :
    (∀ (State : Type) [DecidableEq State] (jsonLength : State → Option Nat)
      (calls : List (StoreCall State)),
      (Along (StoreCall.apply jsonLength) (fun store call => call.fitsWord jsonLength store)
          (empty limits) calls →
        (run (StoreCall.apply jsonLength) (empty limits) calls).Accounted) ∧
      (run (StoreCall.apply jsonLength) (empty limits) calls).Within jsonLength ∧
      ∀ localKeyId responseId candidateId state nowMs,
        (∀ superseding, InsertLaws jsonLength (run (StoreCall.apply jsonLength) (empty limits) calls)
          localKeyId responseId candidateId state nowMs superseding
          ((run (StoreCall.apply jsonLength) (empty limits) calls).insert jsonLength localKeyId
            responseId candidateId state nowMs superseding)) ∧
        ConditionalInsertLaws (run (StoreCall.apply jsonLength) (empty limits) calls)
          localKeyId responseId candidateId state nowMs
          (AdapterContinuationStore.insertIfStored jsonLength
            (run (StoreCall.apply jsonLength) (empty limits) calls) localKeyId responseId
            candidateId state nowMs)) ∧
    ∀ (Turns : Type) [DecidableEq Turns] (jsonLength : AdapterContinuationState Turns → Option Nat)
      (calls : List (StoreCall (AdapterContinuationState Turns)))
      localKeyId responseId candidateId nowMs state,
      (AdapterContinuationStore.get (run (StoreCall.apply jsonLength) (empty limits) calls)
          localKeyId responseId candidateId nowMs).2 = .ok state →
        LookupLaws ((run (StoreCall.apply jsonLength) (empty limits) calls).prune nowMs)
          localKeyId responseId candidateId state ∧
        ∃ call ∈ calls, ∃ id, call.offers (localKeyId, id) candidateId state := by
  refine ⟨fun State _ jsonLength calls => ⟨fun fits => ?_, run_within jsonLength limits calls, ?_⟩,
    ?_⟩
  · exact Along.run_invariant Accounted StoreCall.apply_accounted (empty_accounted limits) fits
  · intro localKeyId responseId candidateId state nowMs
    have covered := (run_within jsonLength limits calls).covered
    exact ⟨insert_laws covered localKeyId responseId candidateId state nowMs,
      insertIfStored_laws covered localKeyId responseId candidateId state nowMs⟩
  · intro Turns _ jsonLength calls localKeyId responseId candidateId nowMs state accepted
    have laws := get_laws accepted
    obtain ⟨id, stored, present, -, rfl, rfl⟩ := laws.own
    rw [lookup_prune] at present
    obtain ⟨call, member, offered⟩ :=
      run_origin jsonLength limits calls (Option.filter_eq_some_iff.mp present).1
    exact ⟨laws, call, member, id, offered⟩

def smallLimits : StoreLimits := ⟨2, 100, 64, 128, by decide⟩

def threeEntries : List (StoreCall Unit) :=
  [.insert "key" "first" "candidate" () 0 (fun _ _ => false),
    .insert "key" "second" "candidate" () 1 (fun _ _ => false),
    .get "key" "first" 2,
    .insert "key" "third" "candidate" () 3 (fun _ _ => false)]

/-- The third entry of a store of two evicts the first. -/
theorem evicting_run_accounted :
    let final := run (StoreCall.apply fun _ => some 40) (empty smallLimits) threeEntries
    (final.entries.keys = [("key", "second"), ("key", "third")] ∧ final.totalBytes = 80) ∧
      final.Accounted := by
  refine ⟨?_, ((stores_bounded_and_owned smallLimits).1 Unit (fun _ => some 40) _).1
    (fitsWord_of_small (by decide) threeEntries)⟩
  simp only [threeEntries, run_cons, run_nil, StoreCall.apply]
  rw [@insert_made _ (fun _ => some 40) (empty smallLimits) _ "key" "first" "candidate" () 0
      (fun _ _ => false) 40 (by decide +kernel) (by decide +kernel)
      (makeRoom_free (by decide +kernel)),
    @insert_made _ (fun _ => some 40) _ _ "key" "second" "candidate" () 1
      (fun _ _ => false) 40 (by decide +kernel) (by decide +kernel)
      (makeRoom_free (by decide +kernel)),
    @insert_made _ (fun _ => some 40) _ _ "key" "third" "candidate" () 3
      (fun _ _ => false) 40 (by decide +kernel) (by decide +kernel)
      ((@makeRoom_evicts _ _ _ ("key", "first") (by decide +kernel) (by decide +kernel)).trans
        (makeRoom_free (by decide +kernel)))]
  decide +kernel

/-- Limits whose byte budget is the largest machine word. -/
def largestWord : StoreLimits := ⟨2, 0, usizeMax, usizeMax, le_rfl⟩

def halfWord : Nat := 9223372036854775808

def twoHalves : List (StoreCall Unit) :=
  [.insert "key" "first" "candidate" () 0 (fun _ _ => false),
    .insert "key" "second" "candidate" () 0 (fun _ _ => false)]

theorem account_saturates :
    (run (StoreCall.apply fun _ => some halfWord) (empty largestWord) twoHalves).totalBytes ≠
      (run (StoreCall.apply fun _ => some halfWord) (empty largestWord) twoHalves).storedBytes := by
  simp only [twoHalves, run_cons, run_nil, StoreCall.apply]
  rw [@insert_made _ (fun _ => some halfWord) (empty largestWord) _ "key" "first" "candidate" ()
      0 (fun _ _ => false) halfWord (by decide +kernel) (by decide +kernel)
      (makeRoom_free (by decide +kernel)),
    @insert_made _ (fun _ => some halfWord) _ _ "key" "second" "candidate" () 0
      (fun _ _ => false) halfWord (by decide +kernel) (by decide +kernel)
      (makeRoom_free (by decide +kernel))]
  decide +kernel

end ZenithRelay.Protocol.Adapter
