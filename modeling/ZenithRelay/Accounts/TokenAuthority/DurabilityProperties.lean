import ZenithRelay.Accounts.TokenAuthority.DurabilityTokens

/-!
# Exchanged tokens are durable

While a slot is only changed by operations that persist, a token that is handed out
has been saved, an exchanged set stays pending until it is, and the slot never goes
back to an older set.
-/

set_option autoImplicit false

namespace ZenithRelay.Accounts

variable {phases : TaskId → Option DurabilityPhase}

/-- The call of an adapter for the slot. -/
def AuthorityAction.calls (id : EntryId) : AuthorityAction → Bool
  | .refreshFenced _ _ _ revision | .persistFenced _ _ revision
  | .persistAuthStateFenced _ _ revision => revision.entry = id
  | _ => false

/-- The event starts nothing but an operation that persists. -/
def startsPersisting : AuthorityEvent → Bool
  | .spawn _ operation => operation.persists
  | _ => true

abbrev OnlyPersisting (events : List AuthorityEvent) : Prop :=
  ∀ event ∈ events, startsPersisting event = true

namespace AuthorityPool

open TokenAuthority

/-- The task, resumed, learns that its exchange brings the slot these tokens. -/
def Exchanges (pool : AuthorityPool) (task : TaskId) (oracle : AdapterOracle) (id : EntryId)
    (tokens : TokenSet) : Prop :=
  ∃ accountId refreshToken nowMs revision exchange entry,
    pool.nextAction task = some (.refreshFenced accountId refreshToken nowMs revision) ∧
    revision.entry = id ∧ oracle.refresh = .ok exchange ∧ pool.shared.entries[id]? = some entry ∧
    tokens = entry.slot.tokens.refreshed exchange refreshToken nowMs

/-- The task is about to ask an adapter to take these tokens of the slot. -/
def Persists (pool : AuthorityPool) (task : TaskId) (id : EntryId) (tokens : TokenSet) : Prop :=
  ∃ accountId revision, pool.nextAction task = some (.persistFenced accountId tokens revision) ∧
    revision.entry = id

/-- The tokens of the slot that an adapter takes in this event. -/
def savedTokens (pool : AuthorityPool) (id : EntryId) : AuthorityEvent → Option TokenSet
  | .resume task ⟨_, .ok ()⟩ =>
    match pool.nextAction task with
    | some (.persistFenced _ tokens revision) => if revision.entry = id then some tokens else none
    | _ => none
  | _ => none

/-- The exchange of a task brings `tokens`, and after `during` it asks an adapter to
take some. -/
structure ExchangedTo (pool : AuthorityPool) (task : TaskId) (oracle : AdapterOracle)
    (during : List AuthorityEvent) (id : EntryId) (tokens : TokenSet) : Prop where
  exchanges : pool.Exchanges task oracle id tokens
  stays : Execution.Along step (fun pool event => (pool.step event).task task ≠ none)
    (pool.step (.resume task oracle)) during
  persists : ∃ taken, (pool.run (.resume task oracle :: during)).Persists task id taken

/-- The slot waits to be saved with these credentials: whatever is asked of an adapter
for it is to take the tokens it has. -/
def AwaitsPersistence (pool : AuthorityPool) (id : EntryId) (tokens : TokenSet) : Prop :=
  ∃ entry, pool.shared.entries[id]? = some entry ∧ entry.slot.persistencePending = true ∧
    SameCredentials entry.slot.tokens tokens ∧
    ∀ task action, pool.nextAction task = some action → action.calls id = true →
      pool.Persists task id entry.slot.tokens

/-- Every token that is being returned for the slot is what an adapter took last. -/
def ReturnsDurable (pool : AuthorityPool) (id : EntryId) (registered : TokenSet) : Prop :=
  ∀ task accountId prepared, pool.task task = some (.done (.prepared accountId (.ok prepared))) →
    prepared.dispatchRevision.entry = id → pool.shared.durable id registered = prepared.tokens

/-- The tokens of the slot are no older than they were. -/
def NoOlderThan (later earlier : AuthorityPool) (id : EntryId) : Prop :=
  ∀ before after, earlier.shared.entries[id]? = some before →
    later.shared.entries[id]? = some after → before.slot.tokens.generation < u64Max →
    tokenSetIsNewer before.slot.tokens after.slot.tokens = false

variable {pool : AuthorityPool} {id : EntryId} {registered : TokenSet}
  {phases : TaskId → Option DurabilityPhase}

abbrev InPhases (id : EntryId) (registered : TokenSet) (pool : AuthorityPool)
    (phases : TaskId → Option DurabilityPhase) : Prop :=
  ∀ task, (durabilityDiscipline id registered).InPhase pool phases task

theorem nextAction_eq {task : TaskId} {action : AuthorityAction}
    (reached : pool.nextAction task = some action) :
    ∃ next, pool.task task = some (.perform action next) := by
  obtain ⟨remaining, runs, acts⟩ := Option.bind_eq_some_iff.mp reached
  cases remaining with
  | done result => cases acts
  | perform performed next =>
      obtain rfl : performed = action := Option.some.inj acts
      exact ⟨next, runs⟩

/-- The phase of a task allows its next action. -/
theorem InPhases.allows (inPhases : InPhases id registered pool phases) {task : TaskId}
    {action : AuthorityAction} (reached : pool.nextAction task = some action) :
    ∃ phase, phases task = some phase ∧ phase.Allowed action := by
  obtain ⟨next, runs⟩ := nextAction_eq reached
  obtain ⟨phase, running, follows⟩ := (inPhases task).running runs
  exact ⟨phase, running, follows.of_perform.1⟩

private theorem returnsDurable (invariant : DurabilityInvariant id registered pool.shared phases)
    (inPhases : InPhases id registered pool phases) : pool.ReturnsDurable id registered := by
  intro task accountId prepared runs own
  obtain ⟨phase, reached, follows⟩ := (inPhases task).running runs
  obtain ⟨slot, stage, settled, same⟩ := follows.of_done.2 accountId prepared rfl
  have holding : phases task = some (some ⟨id, slot, true, stage⟩) := by
    rw [reached, settled.held, own]
  rw [← same]
  exact (invariant.holds holding rfl).2 rfl

private theorem awaitsPersistence {tokens : TokenSet}
    (invariant : DurabilityInvariant id registered pool.shared phases)
    (inPhases : InPhases id registered pool phases)
    (unsettled : Unsettled id tokens pool.shared phases) : pool.AwaitsPersistence id tokens := by
  obtain ⟨⟨owner, slot, present, pending, same⟩, unsaved⟩ := unsettled
  obtain ⟨entry, found, moved⟩ := Option.map_eq_some_iff.mp present
  cases moved
  refine ⟨entry, found, pending, same, fun task action reached calls => ?_⟩
  obtain ⟨phase, running, allowed⟩ := inPhases.allows reached
  -- whoever holds the slot knows it to be unsaved
  have notSaved : ∀ held, phase = some held → held.id = id → held.saved = false := by
    rintro held rfl rfl
    exact unsaved task _ _ _ running (DurabilityInvariant.view_of_id held)
  cases action with
  | refreshFenced accountId refreshToken nowMs revision =>
      obtain ⟨held, holds, own, settled, -⟩ := allowed
      have saved := notSaved held holds (own.trans (of_decide_eq_true calls))
      exact absurd (saved.symm.trans settled.2) Bool.noConfusion
  | persistFenced accountId tokens revision =>
      obtain ⟨held, rfl, own, -, -, rfl⟩ := allowed
      have slotId := of_decide_eq_true calls
      obtain ⟨taken, -⟩ := invariant.holds running (own.trans slotId)
      rw [present] at taken
      have content : entry.slot = held.content := congrArg Prod.snd (Option.some.inj taken)
      rw [content]
      exact ⟨accountId, revision, reached, slotId⟩
  | persistAuthStateFenced accountId authState revision =>
      obtain ⟨held, holds, own, settled⟩ := allowed
      have saved := notSaved held holds (own.trans (of_decide_eq_true calls))
      exact absurd (saved.symm.trans settled.2) Bool.noConfusion
  | _ => cases calls

theorem spawned {events : List AuthorityEvent} (permitted : OnlyPersisting events) (task : TaskId)
    (operation : AuthorityOperation) (member : .spawn task operation ∈ events) :
    operation.persists = true := permitted _ member

/-- From a slot with these tokens on, it never has older ones. -/
private theorem since_run {tokens : TokenSet} (below : tokens.generation < u64Max)
    (invariant : DurabilityInvariant id registered pool.shared phases)
    (inPhases : InPhases id registered pool phases) (since : Since id tokens pool.shared)
    {events : List AuthorityEvent} (permitted : OnlyPersisting events) :
    Since id tokens (pool.run events).shared := by
  have kept : (durabilityDiscipline id registered).Keeps (fun shared _ => Since id tokens shared)
      (fun _ _ => True) := by
    intro pool event phases after phasesAfter invariant since _ _ moves
    cases moves with
    | idle => exact since
    | spawned absent => exact since
    | @left task phase reached _ =>
        obtain ⟨owner, slot, present, later⟩ := since
        have given := DurabilityInvariant.slotAt_leave pool.shared task id
        rw [present] at given
        exact ⟨_, slot, given, later⟩
    | performed resumed runs reached allowed executed =>
        exact since.step below invariant reached (invariant.effect reached allowed executed)
  obtain ⟨_, -, -, later⟩ := kept.run invariant inPhases since (spawned permitted)
    (Execution.Along.of_forall (fun _ _ => trivial) pool events)
  exact later

private theorem noOlderThan (invariant : DurabilityInvariant id registered pool.shared phases)
    (inPhases : InPhases id registered pool phases) {events : List AuthorityEvent}
    (permitted : OnlyPersisting events) : (pool.run events).NoOlderThan pool id := by
  intro before after found foundAfter below
  obtain ⟨owner, slot, present, later⟩ := since_run below invariant inPhases
    ⟨_, before.slot, DurabilityInvariant.slotAt_found found, .inl rfl⟩ permitted
  rw [DurabilityInvariant.slotAt_found foundAfter] at present
  cases present
  rw [tokenSetIsNewer]
  rcases later with same | later
  · simp [same]
  · simp [Nat.lt_asymm later, Nat.ne_of_lt later]

/-- A task whose exchange was answered carries the tokens that it brings. -/
private theorem carries_exchange {task : TaskId} {oracle : AdapterOracle} {tokens : TokenSet}
    (invariant : DurabilityInvariant id registered pool.shared phases)
    (inPhases : InPhases id registered pool phases)
    (exchanges : pool.Exchanges task oracle id tokens) :
    ∃ after held, DurabilityInvariant id registered (pool.step (.resume task oracle)).shared after ∧
      InPhases id registered (pool.step (.resume task oracle)) after ∧
      after task = some (some held) ∧ held.id = id ∧ Carries held tokens := by
  obtain ⟨accountId, refreshToken, nowMs, revision, exchange, entry, reached, own, answered, found,
    rfl⟩ := exchanges
  obtain ⟨next, runs⟩ := nextAction_eq reached
  obtain ⟨phase, running, follows⟩ := (inPhases task).running runs
  obtain ⟨⟨held, rfl, heldId, settled, untried⟩, rest⟩ := follows.of_perform
  have executed : pool.shared.execute task (.refreshFenced accountId refreshToken nowMs revision)
      oracle = some (pool.shared, .ok exchange) := by
    rw [execute, answered]
  have stepped : pool.step (.resume task oracle) =
      { pool with tasks := pool.tasks.insert task (next (.ok exchange)) } := by
    simp only [AuthorityPool.step, TaskPool.step, runs, machine, executed]
  have allowed : DurabilityPhase.Allowed (some held)
      (.refreshFenced accountId refreshToken nowMs revision) :=
    ⟨held, rfl, heldId, settled, untried⟩
  have advanced := invariant.executes running (invariant.effect running allowed executed)
  have present := (invariant.holds running (heldId.trans own)).1
  rw [DurabilityInvariant.slotAt_found found] at present
  have content : entry.slot = held.content := congrArg Prod.snd (Option.some.inj present)
  rw [stepped]
  refine ⟨_, { held with stage := .answered exchange refreshToken nowMs }, advanced, ?_,
    Function.update_self .., heldId.trans own, settled.1, ?_⟩
  · exact Discipline.inPhase_insert inPhases rfl (rest (.ok exchange))
  · rw [content]

/-- It carries them for as long as it runs. -/
private theorem carries_run {task : TaskId} {held : HeldTokens} {tokens : TokenSet}
    (invariant : DurabilityInvariant id registered pool.shared phases)
    (inPhases : InPhases id registered pool phases) (reached : phases task = some (some held))
    (own : held.id = id) (carries : Carries held tokens) {events : List AuthorityEvent}
    (permitted : OnlyPersisting events)
    (stays : Execution.Along step (fun pool event => (pool.step event).task task ≠ none) pool
      events) :
    ∃ after held, DurabilityInvariant id registered (pool.run events).shared after ∧
      InPhases id registered (pool.run events) after ∧
      after task = some (some held) ∧ held.id = id ∧ Carries held tokens := by
  have kept : (durabilityDiscipline id registered).Keeps
      (fun _ phases => ∃ held, phases task = some (some held) ∧ held.id = id ∧ Carries held tokens)
      (fun (pool : AuthorityPool) event => (pool.step event).task task ≠ none) := by
    rintro pool event phases after phasesAfter invariant ⟨held, running, own, carries⟩ stays gone
      moves
    cases moves with
    | idle => exact ⟨held, running, own, carries⟩
    | @spawned other absent =>
        have different : task ≠ other := by
          rintro rfl
          rw [running] at absent
          cases absent
        exact ⟨held, (Function.update_of_ne different ..).trans running, own, carries⟩
    | @left other phase reached _ =>
        have different : task ≠ other := by
          rintro rfl
          exact stays (gone task (Function.update_self ..))
        exact ⟨held, (Function.update_of_ne different ..).trans running, own, carries⟩
    | @performed other oracle action after response next phase resumed runs reached allowed executed =>
        by_cases self : task = other
        · subst self
          rw [running] at reached
          cases reached
          obtain ⟨moved, leads, sameId, carried⟩ := carries_after carries allowed response
          exact ⟨moved, (Function.update_self ..).trans (congrArg some leads), sameId.trans own, carried⟩
        · exact ⟨held, (Function.update_of_ne self ..).trans running, own, carries⟩
  obtain ⟨after, invariantAfter, inPhasesAfter, held, carried⟩ :=
    kept.run invariant inPhases ⟨held, reached, own, carries⟩ (spawned permitted) stays
  exact ⟨after, held, invariantAfter, inPhasesAfter, carried⟩

private theorem unsettled_run {tokens : TokenSet}
    (invariant : DurabilityInvariant id registered pool.shared phases)
    (inPhases : InPhases id registered pool phases)
    (unsettled : Unsettled id tokens pool.shared phases) {events : List AuthorityEvent}
    (permitted : OnlyPersisting events)
    (unsaved : Execution.Along step (fun pool event => pool.savedTokens id event = none) pool
      events) :
    (pool.run events).AwaitsPersistence id tokens := by
  have kept : (durabilityDiscipline id registered).Keeps (Unsettled id tokens)
      (fun (pool : AuthorityPool) event => pool.savedTokens id event = none) := by
    intro pool event phases after phasesAfter invariant unsettled unsaved _ moves
    cases moves with
    | idle => exact unsettled
    | spawned absent => exact unsettled.spawned _
    | left reached _ => exact unsettled.left _
    | @performed task oracle action after response next phase resumed runs reached allowed
        executed =>
        refine unsettled.performed invariant reached ?_ (invariant.effect reached allowed executed)
        rintro accountId saved revision rfl own taken
        subst resumed
        obtain ⟨refresh, _⟩ := oracle
        obtain rfl := taken
        simp [savedTokens, TaskPool.nextAction, runs, own] at unsaved
  obtain ⟨after, invariantAfter, inPhasesAfter, still⟩ :=
    kept.run invariant inPhases unsettled (spawned permitted) unsaved
  exact awaitsPersistence invariantAfter inPhasesAfter still

/-- The tokens that a task carries and asks an adapter to take are pending. -/
private theorem unsettled_persists {task : TaskId} {held : HeldTokens} {tokens taken : TokenSet}
    (invariant : DurabilityInvariant id registered pool.shared phases)
    (inPhases : InPhases id registered pool phases) (reached : phases task = some (some held))
    (carries : Carries held tokens) (persists : pool.Persists task id taken) :
    pool.Persists task id tokens ∧ Unsettled id tokens pool.shared phases := by
  obtain ⟨accountId, revision, acts, own⟩ := persists
  obtain ⟨phase, running, allowed⟩ := inPhases.allows acts
  rw [reached] at running
  cases running
  obtain ⟨rfl, heldId, content, pending, unsaved⟩ := carries_persisted carries allowed
  obtain ⟨present, -⟩ := invariant.holds reached (heldId.trans own)
  refine ⟨⟨accountId, revision, acts, own⟩,
    ⟨_, held.content, present, pending, content ▸ ⟨rfl, rfl, rfl⟩⟩, ?_⟩
  intro other phase otherContent saved runs view
  -- only one task holds the slot
  have taken := (invariant.held other phase otherContent saved runs view).1
  rw [present] at taken
  cases taken
  rw [reached] at runs
  cases runs
  obtain ⟨_, ⟨⟩, viewed⟩ := Option.bind_eq_some_iff.mp view
  split at viewed
  · cases viewed
    exact unsaved
  · cases viewed

theorem registered_run {start : TokenAuthority} (registration : start.Registered id registered)
    {events : List AuthorityEvent} (permitted : OnlyPersisting events) :
    ∃ phases, DurabilityInvariant id registered (run (.init start) events).shared phases ∧
      InPhases id registered (run (.init start) events) phases := by
  have holds : (durabilityDiscipline id registered).Holds (.init start) :=
    Discipline.init (DurabilityInvariant.initially registration)
  exact Discipline.run holds (spawned permitted)

/-- After registration, while a slot is only changed by operations that persist: what is
returned has been saved; the credentials of an exchange that could not be saved stay
and nothing else is asked of an adapter; and the tokens never get older. -/
theorem refreshed_credentials_are_durable {start : TokenAuthority}
    (registration : start.Registered id registered) :
    (∀ events, OnlyPersisting events → (run (.init start) events).ReturnsDurable id registered) ∧
    (∀ before task oracle during after tokens,
      OnlyPersisting (before ++ .resume task oracle :: (during ++ after)) →
      (run (.init start) before).ExchangedTo task oracle during id tokens →
      (run (.init start) (before ++ .resume task oracle :: during)).Persists task id tokens ∧
        (Execution.Along step (fun pool event => pool.savedTokens id event = none)
          (run (.init start) (before ++ .resume task oracle :: during)) after →
        (run (.init start) (before ++ .resume task oracle :: (during ++ after))).AwaitsPersistence id
          tokens)) ∧
    ∀ before after, OnlyPersisting (before ++ after) →
      (run (.init start) (before ++ after)).NoOlderThan (run (.init start) before) id := by
  have append (events more : List AuthorityEvent) :
      run (.init start) (events ++ more) = run (run (.init start) events) more :=
    Execution.run_append _ _ events more
  refine ⟨fun events permitted => ?_, ?_, fun before after permitted => ?_⟩
  · obtain ⟨phases, invariant, inPhases⟩ := registered_run registration permitted
    exact returnsDurable invariant inPhases
  · intro before task oracle during after tokens permitted exchanged
    obtain ⟨first, rest⟩ := List.forall_mem_append.mp permitted
    obtain ⟨middle, last⟩ := List.forall_mem_append.mp (List.forall_mem_cons.mp rest).2
    obtain ⟨phases, invariant, inPhases⟩ := registered_run registration first
    obtain ⟨_, held, invariant, inPhases, reached, own, carries⟩ :=
      carries_exchange invariant inPhases exchanged.exchanges
    obtain ⟨_, held, invariant, inPhases, reached, own, carries⟩ :=
      carries_run invariant inPhases reached own carries middle exchanged.stays
    obtain ⟨taken, persists⟩ := exchanged.persists
    obtain ⟨hands, unsettled⟩ := unsettled_persists invariant inPhases reached carries persists
    refine ⟨append before _ ▸ hands, fun unsaved => ?_⟩
    rw [append] at unsaved ⊢
    have joined : (run (.init start) before).run (.resume task oracle :: (during ++ after)) =
        ((run (.init start) before).run (.resume task oracle :: during)).run after :=
      Execution.run_append _ _ during after
    rw [joined]
    exact unsettled_run invariant inPhases unsettled last unsaved
  · obtain ⟨first, rest⟩ := List.forall_mem_append.mp permitted
    obtain ⟨phases, invariant, inPhases⟩ := registered_run registration first
    exact append before after ▸ noOlderThan invariant inPhases rest

/-- The authority with one account, just registered. -/
def withAccount (accountId : String) (tokens : TokenSet) (authState : AccountAuthState) :
    TokenAuthority where
  slots := (∅ : BTreeMap String EntryId).insert accountId 0
  slotsHeldBy := none
  entries := (∅ : BTreeMap EntryId TokenSlotEntry).insert 0 (.new accountId (.fresh tokens authState))
  nextEntry := 1
  maxAccounts := 1
  persisted := ∅

theorem registered_withAccount (accountId : String) (tokens : TokenSet)
    (authState : AccountAuthState) : (withAccount accountId tokens authState).Registered 0 tokens := by
  refine ⟨⟨.new accountId (.fresh tokens authState), authState, ?_, rfl, rfl⟩, ?_⟩
  · exact (BTreeMap.lookup_insert ..).trans (if_pos rfl)
  · simp [withAccount]

/-- An adapter that exchanges, and whose disk takes the tokens or not. -/
def exchanging (persist : Except String Unit) : AdapterOracle :=
  ⟨.ok ⟨"new", some "second", none, some 100⟩, persist⟩

/-- `count` steps of a task. -/
def resuming (task : TaskId) (oracle : AdapterOracle) (count : Nat) : List AuthorityEvent :=
  List.replicate count (.resume task oracle)

theorem exchanged_to_new : (run (.init (withAccount "account" ⟨"old", some "first", none, some 1, 0, 7⟩ .active))
    (.spawn 1 (.prepareAndPersist "account" 10 0) :: resuming 1 (exchanging (.error "disk_full")) 10)).ExchangedTo
      1 (exchanging (.error "disk_full")) (resuming 1 (exchanging (.error "disk_full")) 7) 0
      ⟨"new", some "second", none, some 100, 10, 8⟩ where
  exchanges := ⟨"account", "first", 10, ⟨0, 1⟩, ⟨"new", some "second", none, some 100⟩,
    ⟨"account", ⟨⟨"old", some "first", none, some 1, 0, 7⟩, .refreshing, false, false⟩, some 1, 1, true, []⟩,
    by decide +kernel, rfl, rfl, by decide +kernel, rfl⟩
  stays := by decide +kernel
  persists := ⟨⟨"new", some "second", none, some 100, 10, 8⟩, "account", ⟨0, 2⟩, by decide +kernel, rfl⟩

/-- After an exchange and a full disk, only the persistence of the exchanged set is next. -/
theorem refused_tokens_await_persistence :
    (run (.init (withAccount "account" ⟨"old", some "first", none, some 1, 0, 7⟩ .active))
      ((.spawn 1 (.prepareAndPersist "account" 10 0) ::
          resuming 1 (exchanging (.error "disk_full")) 10) ++
        .resume 1 (exchanging (.error "disk_full")) ::
          (resuming 1 (exchanging (.error "disk_full")) 7 ++
            (resuming 1 (exchanging (.error "disk_full")) 2 ++
              .spawn 2 (.prepareAndPersist "account" 20 0) ::
                resuming 2 (exchanging (.ok ())) 8)))).AwaitsPersistence 0
      ⟨"new", some "second", none, some 100, 10, 8⟩ :=
  ((refreshed_credentials_are_durable (registered_withAccount _ _ _)).2.1 _ _ _ _ _ _
    (by decide +kernel) exchanged_to_new).2 (by decide +kernel)

/-- An invalidation gives the exchanged set another expiry and saves that one, after which
a refresh is asked for although the set of the exchange was never saved. -/
theorem exchanged_set_rewritten_before_saved :
    ¬∀ (start : TokenAuthority) (id : EntryId) (registered : TokenSet), start.Registered id registered →
      ∀ before task oracle during after tokens other accountId refreshToken nowMs revision,
        OnlyPersisting (before ++ .resume task oracle :: (during ++ after)) →
        (run (.init start) before).ExchangedTo task oracle during id tokens →
        (run (.init start) (before ++ .resume task oracle :: (during ++ after))).nextAction other =
          some (.refreshFenced accountId refreshToken nowMs revision) → revision.entry = id →
        tokens ∈ Execution.trace step (fun pool event => pool.savedTokens id event)
          (run (.init start) (before ++ .resume task oracle :: during)) after := by
  intro claimed
  have saved := claimed _ 0 _ (registered_withAccount _ _ _) _ _ _ _
    (resuming 1 (exchanging (.error "disk_full")) 2 ++
      .spawn 2 (.invalidateAccessAndPersist "account" 20) :: resuming 2 (exchanging (.ok ())) 17 ++
      .spawn 3 (.prepareAndPersist "account" 30 0) :: resuming 3 (exchanging (.ok ())) 10)
    _ 3 "account" "second" 30 ⟨0, 4⟩ (by decide +kernel) exchanged_to_new (by decide +kernel) rfl
  revert saved
  decide +kernel

end AuthorityPool

end ZenithRelay.Accounts
