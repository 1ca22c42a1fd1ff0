import ZenithRelay.Accounts.TokenAuthority.AuthStateHistory
import ZenithRelay.Accounts.TokenAuthority.DurabilityProperties

/-!
# A failed exchange restores the authentication state

The marker of a running exchange is never persisted, and a call that reports a failed
exchange leaves the state of before the marker, as long as no call is dropped while it
waits for its exchange.
-/

set_option autoImplicit false

namespace ZenithRelay.Accounts

/-- Whether the event starts nothing but a `prepare`. -/
def startsPreparing : AuthorityEvent → Bool
  | .spawn _ operation => operation.prepares
  | _ => true

/-- The runs of prepare calls. -/
abbrev OnlyPreparing (events : List AuthorityEvent) : Prop :=
  ∀ event ∈ events, startsPreparing event = true

namespace AuthorityPool

open TokenAuthority

def awaitsExchange (pool : AuthorityPool) (task : TaskId) : Bool :=
  match pool.nextAction task with
  | some (.refreshFenced ..) => true
  | _ => false

/-- No call is dropped while it waits for its exchange. -/
def KeepsExchange (pool : AuthorityPool) : AuthorityEvent → Prop
  | .abandon task => pool.awaitsExchange task = false
  | _ => True

instance (pool : AuthorityPool) : ∀ event, Decidable (pool.KeepsExchange event)
  | .spawn .. | .resume .. => inferInstanceAs (Decidable True)
  | .abandon task => inferInstanceAs (Decidable (pool.awaitsExchange task = false))

/-- The states of a slot along a run, the newest first. -/
def authStates (pool : AuthorityPool) (events : List AuthorityEvent) (id : EntryId) :
    List AccountAuthState :=
  (events.inits.filterMap fun before => (pool.run before).shared.authStateOf id).reverse

private theorem authStates_snoc (pool : AuthorityPool) (events : List AuthorityEvent)
    (event : AuthorityEvent) : pool.authStates (events ++ [event]) =
      (pool.run (events ++ [event])).shared.observe (pool.authStates events) := by
  funext id
  have last : [event].inits.tail.map (fun rest => events ++ rest) = [events ++ [event]] := rfl
  simp only [authStates, observe, List.inits_append, last, List.filterMap_append,
    List.reverse_append]
  cases now : (pool.run (events ++ [event])).shared.authStateOf id <;> simp [now]

/-- A task that ends leaves no marker of its own, unless its exchange was dropped. -/
private theorem left_of_ends {slots : BTreeMap String EntryId} {pool : AuthorityPool}
    {event : AuthorityEvent} {task : TaskId} {phase : AuthStatePhase}
    (ends : (authStateDiscipline slots).Ends pool event task phase)
    (kept : pool.KeepsExchange event) : phase.Left := by
  obtain ⟨_, final⟩ | ⟨dropped, action, next, runs, allowed, awaits⟩ := ends
  · exact final.1
  · have now : pool.nextAction task = some action := by
      rw [TaskPool.nextAction, runs]
      rfl
    cases phase with
    | asking => trivial
    | holding held =>
      cases action with
      | lockSlot => exact allowed.elim
      | refreshFenced =>
        rw [dropped, KeepsExchange, awaitsExchange, now] at kept
        cases kept
      | persistFenced => exact allowed
      | persistAuthStateFenced => exact allowed.1
      | _ => cases awaits

private theorem traced_init {authority : TokenAuthority} (rested : authority.Rested)
    {phases : TaskId → Option AuthStatePhase} (idle : ∀ task, phases task = none) :
    Traced (authStates (.init authority) []) authority phases := by
  have first : authStates (.init authority) [] = authority.observe fun _ => [] := by
    funext id
    have initial : (run (.init authority) []).shared = authority := rfl
    cases now : authority.authStateOf id <;> simp [authStates, observe, initial, now]
  rw [first]
  refine ⟨fun _ _ => observe_now _ _, fun id marked _ => ?_, fun task held runs => ?_⟩
  · obtain ⟨⟨owner, slot⟩, present, content⟩ := Option.map_eq_some_iff.mp marked
    exact absurd content (rested.slots id owner slot present).2
  · rw [idle] at runs
    cases runs

/-- The invariant of a run and, while no exchange is dropped, the states along it. -/
private theorem run_traced {authority : TokenAuthority} (rested : authority.Rested)
    {events : List AuthorityEvent} (prepares : OnlyPreparing events) :
    ∃ phases, AuthStateInvariant authority.slots (run (.init authority) events).shared phases ∧
      (∀ id, (authStateDiscipline authority.slots).InPhase (run (.init authority) events) phases id) ∧
      (Execution.Along step KeepsExchange (.init authority) events →
        Traced (authStates (.init authority) events) (run (.init authority) events).shared
          phases) := by
  induction events using List.reverseRecOn with
  | nil =>
    obtain ⟨phases, invariant, inPhase⟩ := (authStateDiscipline authority.slots).init
      (AuthStateInvariant.initially rested)
    refine ⟨phases, invariant, inPhase, fun _ => traced_init rested fun task => ?_⟩
    exact (inPhase task).idle (by simp [TaskPool.task, TaskPool.init])
  | append_singleton events event ih =>
    obtain ⟨earlier, last⟩ := List.forall_mem_append.mp prepares
    obtain ⟨phases, invariant, inPhase, traced⟩ := ih earlier
    have first : ∀ task operation, event = .spawn task operation → operation.prepares = true := by
      rintro task operation rfl
      exact last _ List.mem_cons_self
    have stepped : run (.init authority) (events ++ [event]) =
        step (run (.init authority) events) event :=
      Execution.run_append step _ events [event]
    obtain ⟨after, moves, invariantAfter, inPhaseAfter⟩ :=
      Discipline.phaseStep invariant inPhase first
    rw [authStates_snoc, stepped]
    refine ⟨after, invariantAfter, inPhaseAfter, fun along => ?_⟩
    obtain ⟨before, kept, -⟩ := (Execution.along_append step).mp along
    revert moves
    rw [← step]
    generalize (step (run (.init authority) events) event).shared = shared
    intro moves
    cases moves with
    | idle => exact (traced before).idle
    | spawned absent => exact (traced before).spawns absent
    | left reached ends =>
      exact (traced before).leave invariant reached (left_of_ends ends kept)
    | performed _ _ reached allowed executed =>
      exact (traced before).executes invariant rested.trimmed reached
        (authState_effect allowed executed).1

/-- The account and the code of a call that has ended with a failed exchange. -/
def failedExchange (pool : AuthorityPool) (task : TaskId) : Option (String × String) :=
  match pool.task task with
  | some (.done (.prepared account (.error (.failed (.refreshFailed code))))) => some (account, code)
  | _ => none

private theorem task_of_failedExchange {pool : AuthorityPool} {task : TaskId}
    {account code : String} (failed : pool.failedExchange task = some (account, code)) :
    pool.task task = some (.done (.prepared account (.error (.failed (.refreshFailed code))))) := by
  rw [failedExchange] at failed
  split at failed
  next runs =>
    cases failed
    exact runs
  next => cases failed

/-- The account's slot is in the state of before the last marker. -/
def RestoresAuthState (start : AuthorityPool) (events : List AuthorityEvent) (account : String) :
    Prop :=
  ∃ id state, (start.run events).shared.slots[account]? = some id ∧
    (start.run events).shared.authStateOf id = some state ∧
    beforeMarker (start.authStates events id) = some state

/-- The marker of a running exchange is never persisted, and a call that ends with a failed
exchange has put the state of before the marker back, while no call is dropped that waits
for its exchange. -/
theorem failed_refresh_restores {authority : TokenAuthority} (rested : authority.Rested)
    {events : List AuthorityEvent} (prepares : OnlyPreparing events) :
    (∀ task account authState revision, (run (.init authority) events).nextAction task =
      some (.persistAuthStateFenced account authState revision) → authState ≠ .refreshing) ∧
    (Execution.Along step KeepsExchange (.init authority) events →
      ∀ task account code, (run (.init authority) events).failedExchange task = some (account, code) →
        RestoresAuthState (.init authority) events account) := by
  obtain ⟨phases, invariant, inPhase, traced⟩ := run_traced rested prepares
  refine ⟨fun task account authState revision now => ?_, fun along task account code failed => ?_⟩
  · obtain ⟨remaining, runs, performs⟩ := Option.bind_eq_some_iff.mp now
    obtain ⟨phase, reached, follows⟩ := (inPhase task).running runs
    cases remaining with
    | done => cases performs
    | perform action next =>
      cases performs
      have allowed := follows.of_perform.1
      cases phase with
      | asking => exact allowed.elim
      | holding held =>
        have quiet := invariant.quiet _ _ _ (invariant.held task held reached).1
        exact allowed.2 quiet
  · obtain ⟨phase, reached, follows⟩ := (inPhase task).running (task_of_failedExchange failed)
    have restored := follows.of_done.2 account code rfl
    cases phase with
    | asking => exact restored.elim
    | holding held =>
      obtain ⟨rfl, same⟩ := restored
      refine ⟨held.id, held.content.authState, ?_, authStateOf_held invariant reached, ?_⟩
      · rw [invariant.registered]
        exact (invariant.held task held reached).2
      · exact ((traced along).held task held reached).marked _ same

theorem rested_withAccount {accountId : String} (trimmed : Text.trim accountId = accountId)
    (tokens : TokenSet) {authState : AccountAuthState} (unmarked : authState ≠ .refreshing) :
    (withAccount accountId tokens authState).Rested where
  slots id owner slot present := by
    have only : (withAccount accountId tokens authState).entries[id]? =
        if id = 0 then some (.new accountId (.fresh tokens authState)) else none :=
      (BTreeMap.lookup_insert ..).trans (by simp)
    obtain ⟨entry, found, content⟩ := Option.map_eq_some_iff.mp present
    obtain ⟨rfl, same⟩ := Option.ite_none_right_eq_some.mp (only ▸ found)
    cases same
    cases content
    exact ⟨rfl, unmarked⟩
  trimmed account id found := by
    have only : (withAccount accountId tokens authState).slots[account]? =
        if account = accountId then some 0 else none :=
      (BTreeMap.lookup_insert ..).trans (by simp)
    obtain ⟨rfl, -⟩ := Option.ite_none_right_eq_some.mp (only ▸ found)
    exact trimmed

/-- An adapter without a network. -/
def offline : AdapterOracle := ⟨.error ⟨.transient, "network_error"⟩, .ok ()⟩

/-- One account, whose access token has expired. -/
def expired : TokenAuthority :=
  withAccount "account" ⟨"old", some "first", none, some 1, 0, 7⟩ .active

private theorem rested_expired : expired.Rested :=
  rested_withAccount (by decide +kernel) _ (by decide)

/-- A call that is dropped after some steps, and another one. -/
def droppedAfter (steps : Nat) : List AuthorityEvent :=
  .spawn 1 (.prepare "account" 10 0) :: resuming 1 offline steps ++
    .abandon 1 :: .spawn 2 (.prepare "account" 20 0) :: resuming 2 offline 15

/-- A call that was dropped while it waited for the slot. -/
theorem state_restored_after_drop : RestoresAuthState (.init expired) (droppedAfter 3) "account" :=
  (failed_refresh_restores rested_expired (by decide +kernel)).2 (by decide +kernel) 2 "account"
    "network_error" (by decide +kernel)

/-- A call that is dropped during its exchange leaves the marker to the next one, which takes
it for the state of before. -/
theorem marker_of_dropped_exchange_stays :
    ¬∀ (authority : TokenAuthority), authority.Rested → ∀ events, OnlyPreparing events →
      ∀ task account code, (run (.init authority) events).failedExchange task = some (account, code) →
        RestoresAuthState (.init authority) events account := by
  intro claimed
  obtain ⟨id, state, registered, now, before⟩ := claimed expired rested_expired (droppedAfter 10)
    (by decide +kernel) 2 "account" "network_error" (by decide +kernel)
  have first : (run (.init expired) (droppedAfter 10)).shared.slots["account"]? = some 0 := by
    decide +kernel
  have marked : (run (.init expired) (droppedAfter 10)).shared.authStateOf 0 = some .refreshing := by
    decide +kernel
  rw [first] at registered
  cases registered
  rw [marked] at now
  cases now
  exact beforeMarker_unmarked before rfl

end AuthorityPool

end ZenithRelay.Accounts
