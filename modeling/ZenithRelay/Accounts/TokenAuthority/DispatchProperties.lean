import ZenithRelay.Accounts.TokenAuthority.DispatchActions

/-!
# Dispatched tokens are current

A prepared token whose guard is granted is the content of the slot that its account
is registered with, and nothing has touched that slot since.
-/

set_option autoImplicit false

namespace ZenithRelay.Accounts

namespace TokenAuthority

variable {authority after : TokenAuthority} {task : TaskId} {id : EntryId}
  {entry edited : TokenSlotEntry} {phases : TaskId → Option DispatchPhase}
  {results : List AuthorityResult} {phase : DispatchPhase}

/-! ## Leaving -/

theorem lookup_leave (authority : TokenAuthority) (task : TaskId) (id : EntryId) :
    (authority.leave task).entries[id]? =
      authority.entries[id]?.map fun entry => entry.releasedBy task :=
  Std.ExtTreeMap.getElem?_map

theorem leave_found (found : authority.entries[id]? = some entry) :
    (authority.leave task).entries[id]? = some (entry.releasedBy task) := by
  rw [lookup_leave, found]
  rfl

private theorem leave_entry {released : TokenSlotEntry}
    (found : (authority.leave task).entries[id]? = some released) :
    ∃ entry, authority.entries[id]? = some entry ∧ entry.releasedBy task = released := by
  rw [lookup_leave] at found
  exact Option.map_eq_some_iff.mp found

theorem leave_moves (authority : TokenAuthority) (task : TaskId) :
    Moves task authority (authority.leave task) where
  slots other different holds := by
    refine ⟨?_, rfl⟩
    rw [leave, holds, if_neg fun same => different (Option.some.inj same)]
  entries id entry found := by
    refine ⟨_, leave_found found, rfl, fun inactive => inactive, Nat.le_refl _, ?_⟩
    intro other different holds
    refine ⟨?_, rfl, rfl⟩
    rw [TokenSlotEntry.releasedBy, holds, if_neg fun same => different (Option.some.inj same)]

theorem MapInvariant.leave (map : authority.MapInvariant) (task : TaskId) :
    (authority.leave task).MapInvariant where
  registered accountId id registered := by
    obtain ⟨entry, found, same⟩ := map.registered accountId id registered
    exact ⟨_, leave_found found, same⟩
  active id released found isActive := by
    obtain ⟨entry, stored, rfl⟩ := leave_entry found
    exact map.active id entry stored isActive
  fresh id beyond := by
    rw [lookup_leave, map.fresh id beyond]
    rfl

theorem Issued.leave {accountId : String} {prepared : PreparedToken}
    (issued : authority.Issued phases accountId prepared) (task : TaskId) :
    (authority.leave task).Issued (Function.update phases task none) accountId prepared := by
  obtain ⟨entry, found, account, bounded, current⟩ := issued
  refine ⟨_, leave_found found, account, bounded, fun same => ?_⟩
  obtain ⟨tokens, unbumped⟩ := current same
  refine ⟨tokens, fun other phase held runs => ?_⟩
  by_cases self : other = task
  · rw [self, Function.update_self] at runs
    cases runs
  · rw [Function.update_of_ne self] at runs
    exact unbumped other phase held runs

theorem DispatchInvariant.leave (invariant : authority.DispatchInvariant phases results)
    (task : TaskId) :
    (authority.leave task).DispatchInvariant (Function.update phases task none) results where
  map := invariant.map.leave task
  knows other phase runs := by
    by_cases self : other = task
    · rw [self, Function.update_self] at runs
      cases runs
    · rw [Function.update_of_ne self] at runs
      exact (invariant.knows other phase runs).other (leave_moves authority task) self
  issued accountId prepared member := (invariant.issued accountId prepared member).leave task

/-- A token is handed out at the revision and with the content of a slot whose holder
is leaving it. -/
theorem DispatchInvariant.issue (invariant : authority.DispatchInvariant phases results)
    (reached : phases task = some phase) {accountId : String} {prepared : PreparedToken}
    (final : DispatchPhase.Prepared accountId phase prepared) :
    (authority.leave task).Issued (Function.update phases task none) accountId prepared := by
  have knows := invariant.knows task phase reached
  obtain ⟨read, slot, bumped, holding, tokens⟩ := final
  obtain ⟨entry, found, owner, content, revision⟩ := knows.held _ holding.held
  obtain ⟨stored, present, account⟩ := knows.seen accountId _ holding.seen
  rw [found] at present
  cases present
  have current := revision _ read
  refine ⟨_, leave_found found, account, Nat.le_of_eq current.symm, fun _ => ⟨?_, ?_⟩⟩
  · rw [← tokens]
    exact congrArg TokenSlot.tokens content
  · intro other otherPhase held runs holds same
    by_cases self : other = task
    · rw [self, Function.update_self] at runs
      cases runs
    · rw [Function.update_of_ne self] at runs
      -- nobody else holds the slot
      obtain ⟨stored, present, otherOwner, -⟩ :=
        (invariant.knows other otherPhase runs).held held holds
      rw [same, found] at present
      cases present
      rw [owner] at otherOwner
      exact absurd (Option.some.inj otherOwner).symm self

theorem DispatchInvariant.returns (invariant : authority.DispatchInvariant phases results)
    (reached : phases task = some phase) {result : AuthorityResult} (final : phase.Final result) :
    (authority.leave task).DispatchInvariant (Function.update phases task none)
      (result :: results) where
  map := invariant.map.leave task
  knows := (invariant.leave task).knows
  issued accountId prepared member := by
    rcases List.mem_cons.mp member with rfl | before
    · exact invariant.issue reached final
    · exact (invariant.leave task).issued accountId prepared before

theorem Knows.initial (authority : TokenAuthority) (task : TaskId) :
    authority.Knows task .initial :=
  ⟨(by rintro ⟨⟩), (by rintro ⟨⟩), (by rintro _ _ ⟨⟩), (by rintro _ ⟨⟩), (by rintro _ ⟨⟩)⟩

theorem DispatchInvariant.spawns (invariant : authority.DispatchInvariant phases results)
    (task : TaskId) :
    authority.DispatchInvariant (Function.update phases task (some .initial)) results where
  map := invariant.map
  knows other phase runs := by
    by_cases self : other = task
    · rw [self, Function.update_self] at runs
      cases runs
      exact .initial authority other
    · rw [Function.update_of_ne self] at runs
      exact invariant.knows other phase runs
  issued accountId prepared member := by
    obtain ⟨entry, found, account, bounded, current⟩ := invariant.issued accountId prepared member
    refine ⟨entry, found, account, bounded, fun same => ⟨(current same).1, ?_⟩⟩
    intro other phase held runs holds own
    by_cases self : other = task
    · rw [self, Function.update_self] at runs
      cases runs
      cases holds
    · rw [Function.update_of_ne self] at runs
      exact (current same).2 other phase held runs holds own

/-- Every operation, interleaved in any way with the others. -/
def dispatchDiscipline :
    Discipline machine AuthorityOperation.program (fun _ => True) DispatchPhase where
  protocol := DispatchPhase.protocol
  initial := .initial
  Final := DispatchPhase.Final
  Invariant := DispatchInvariant
  follows operation _ := operation.program_follows
  spawns invariant _ := invariant.spawns _
  executes invariant reached allowed executed :=
    (invariant.executes reached allowed executed).invariant
  returns invariant reached final := invariant.returns reached final
  abandons invariant _ _ _ := invariant.leave _

private theorem new_invariant {maxAccounts : Nat} {start : TokenAuthority}
    (accepted : TokenAuthority.new maxAccounts = .ok start) :
    start.DispatchInvariant (fun _ => none) [] := by
  unfold TokenAuthority.new at accepted
  split at accepted
  · cases accepted
  cases accepted
  refine ⟨⟨?_, ?_, ?_⟩, fun _ _ runs => ?_, fun _ _ member => absurd member List.not_mem_nil⟩
  · intro accountId id found
    simp at found
  · intro id entry found
    simp at found
  · intro id _
    simp
  · cases runs

/-! ## Runs -/

/-- The account is registered with the slot of the token, which has its tokens. -/
structure IsCurrent (authority : TokenAuthority) (accountId : String) (prepared : PreparedToken) :
    Prop where
  registered : authority.slots[accountId]? = some prepared.dispatchRevision.entry
  tokens : ∃ entry, authority.entries[prepared.dispatchRevision.entry]? = some entry ∧
    entry.active = true ∧
    entry.revisionNumber = prepared.dispatchRevision.expectedRevision ∧
    entry.slot.tokens = prepared.tokens

/-- An action by which a replacement, refresh, invalidation or removal takes effect on
a slot, `response` being its answer. -/
def Disturbs (authority : TokenAuthority) (id : EntryId) :
    (action : AuthorityAction) → action.Response → Prop
  | .bump other, counted => other = id ∧ counted = true
  | .retire other, _ => other = id
  | .writeSlot other slot, _ =>
    other = id ∧ ∀ entry, authority.entries[id]? = some entry → slot.tokens ≠ entry.slot.tokens
  | .removeSlot accountId, _ => authority.slots[accountId]? = some id
  | .refreshFenced _ _ _ revision, _ => revision.entry = id
  | _, _ => False

/-- The task has the guard of the slot's revision. -/
def holdsGuard (authority : TokenAuthority) (task : TaskId) (id : EntryId) : Bool :=
  authority.entries[id]?.any fun entry => entry.guards.contains task

theorem IsCurrent.grants {accountId : String} {prepared : PreparedToken}
    (current : authority.IsCurrent accountId prepared) :
    authority.grants prepared.dispatchRevision = true := by
  obtain ⟨entry, found, isActive, number, -⟩ := current.tokens
  exact grants_iff.mpr ⟨entry, found, isActive, number⟩

theorem DispatchInvariant.isCurrent (invariant : authority.DispatchInvariant phases results)
    {accountId : String} {prepared : PreparedToken}
    (issued : .prepared accountId (.ok prepared) ∈ results)
    (granted : authority.grants prepared.dispatchRevision = true) :
    authority.IsCurrent accountId prepared := by
  obtain ⟨entry, found, account, -, current⟩ := invariant.issued accountId prepared issued
  obtain ⟨stored, present, isActive, same⟩ := grants_iff.mp granted
  rw [found] at present
  cases present
  have registered := invariant.map.active _ entry found isActive
  rw [account] at registered
  exact ⟨registered, entry, found, isActive, same, (current same.symm).1⟩

/-- A revision that is passed once stays passed. -/
theorem DispatchInvariant.granted_before (invariant : authority.DispatchInvariant phases results)
    {accountId : String} {prepared : PreparedToken}
    (issued : .prepared accountId (.ok prepared) ∈ results) (moves : Moves task authority after)
    (granted : after.grants prepared.dispatchRevision = true) :
    authority.grants prepared.dispatchRevision = true := by
  obtain ⟨entry, found, -, bounded, -⟩ := invariant.issued accountId prepared issued
  obtain ⟨moved, stored, same⟩ := moves.entries _ entry found
  obtain ⟨other, present, isActive, number⟩ := grants_iff.mp granted
  rw [stored] at present
  cases present
  refine grants_iff.mpr ⟨entry, found, ?_, ?_⟩
  · cases wasActive : entry.active with
    | true => rfl
    | false =>
        rw [same.retired wasActive] at isActive
        cases isActive
  · exact Nat.le_antisymm (number ▸ same.revision) bounded

/-- The discipline leaves the slot of a granted token alone. -/
theorem DispatchInvariant.undisturbed (invariant : authority.DispatchInvariant phases results)
    {accountId : String} {prepared : PreparedToken}
    (issued : .prepared accountId (.ok prepared) ∈ results)
    (granted : authority.grants prepared.dispatchRevision = true)
    (reached : phases task = some phase) {action : AuthorityAction} {oracle : AdapterOracle}
    {response : action.Response} (allowed : phase.Allowed action)
    (executed : authority.execute task action oracle = some (after, response))
    (still : after.grants prepared.dispatchRevision = true) :
    ¬authority.Disturbs prepared.dispatchRevision.entry action response := by
  obtain ⟨entry, found, account, -, current⟩ := invariant.issued accountId prepared issued
  obtain ⟨stored, present, isActive, same⟩ := grants_iff.mp granted
  rw [found] at present
  cases present
  obtain ⟨-, unbumped⟩ := current same.symm
  obtain ⟨moved, storedAfter, activeAfter, numberAfter⟩ := grants_iff.mp still
  intro disturbs
  cases action with
  | bump id =>
      obtain ⟨rfl, rfl⟩ := disturbs
      rw [execute, found] at executed
      simp only [Option.bind_some] at executed
      split at executed
      · cases executed
      · split at executed
        · cases executed
          rw [lookup_putEntry_self] at storedAfter
          cases storedAfter
          exact absurd (numberAfter.trans same.symm) (Nat.succ_ne_self _)
        · cases executed
  | retire id =>
      obtain rfl : id = _ := disturbs
      rw [execute, found] at executed
      simp only [Option.bind_some] at executed
      split at executed
      · cases executed
      · cases executed
        rw [lookup_putEntry_self] at storedAfter
        cases storedAfter
        cases activeAfter
  | writeSlot id slot =>
      obtain ⟨rfl, differs⟩ := disturbs
      obtain ⟨content, bumped, held, rfl | sameTokens⟩ := allowed
      · exact Bool.noConfusion (unbumped task phase _ reached held rfl)
      · obtain ⟨-, rfl, -⟩ := (invariant.knows task phase reached).holds held found
        exact differs entry found sameTokens
  | removeSlot account =>
      obtain ⟨locked, looked⟩ := allowed
      have knows := invariant.knows task phase reached
      have registered := knows.lookup locked account phase.retired looked
      obtain ⟨other, present, inactive⟩ := knows.retired _ (registered.symm.trans disturbs)
      rw [found] at present
      cases present
      rw [isActive] at inactive
      cases inactive
  | refreshFenced account refreshToken nowMs revision =>
      obtain ⟨content, held⟩ := allowed
      exact Bool.noConfusion (unbumped task phase _ reached held disturbs)
  | _ => exact disturbs

theorem grants_putEntry {revision : TokenDispatchRevision}
    (found : authority.entries[id]? = some entry)
    (same : id = revision.entry →
      edited.active = entry.active ∧ edited.revisionNumber = entry.revisionNumber)
    (granted : authority.grants revision = true) :
    (authority.putEntry id edited).grants revision = true := by
  obtain ⟨stored, present, isActive, number⟩ := grants_iff.mp granted
  rw [grants_iff, lookup_putEntry]
  by_cases own : revision.entry = id
  · obtain ⟨sameActive, sameNumber⟩ := same own.symm
    rw [own, found] at present
    cases present
    exact ⟨edited, if_pos own, sameActive.trans isActive, sameNumber.trans number⟩
  · exact ⟨stored, by rw [if_neg own, present], isActive, number⟩

/-- While any task has the guard, no step moves the revision or retires the slot. -/
private theorem guarded_execute (fresh : authority.entries[authority.nextEntry]? = none)
    {revision : TokenDispatchRevision} {guardTask : TaskId}
    (guarded : authority.holdsGuard guardTask revision.entry = true)
    (granted : authority.grants revision = true) {action : AuthorityAction}
    {oracle : AdapterOracle} {response : action.Response}
    (executed : authority.execute task action oracle = some (after, response)) :
    after.grants revision = true := by
  -- a writer of the revision lock waits for the guard
  have blocked : ∀ {id : EntryId} {entry : TokenSlotEntry},
      authority.entries[id]? = some entry → id = revision.entry → ¬entry.guards = [] := by
    rintro id entry found rfl empty
    simp [holdsGuard, found, empty] at guarded
  cases action with
  | lockSlots =>
      rw [execute] at executed
      split at executed
      · cases executed
        exact granted
      · cases executed
  | insertSlot accountId candidate =>
      cases executed
      obtain ⟨stored, present, isActive, number⟩ := grants_iff.mp granted
      refine grants_iff.mpr ⟨stored, ?_, isActive, number⟩
      rw [BTreeMap.lookup_insert, if_neg, present]
      intro same
      rw [same, fresh] at present
      cases present
  | lockSlot id =>
      obtain ⟨entry, found, locks⟩ := Option.bind_eq_some_iff.mp executed
      split at locks
      · cases locks
        exact grants_putEntry found (fun _ => ⟨rfl, rfl⟩) granted
      · cases locks
  | writeSlot id slot =>
      obtain ⟨entry, found, writes⟩ := Option.bind_eq_some_iff.mp executed
      cases writes
      exact grants_putEntry found (fun _ => ⟨rfl, rfl⟩) granted
  | bump id =>
      obtain ⟨entry, found, counts⟩ := Option.bind_eq_some_iff.mp executed
      split at counts
      · cases counts
      next free =>
        split at counts
        · cases counts
          exact grants_putEntry found (fun own => absurd (not_ne_iff.mp free) (blocked found own))
            granted
        · cases counts
          exact granted
  | retire id =>
      obtain ⟨entry, found, retires⟩ := Option.bind_eq_some_iff.mp executed
      split at retires
      · cases retires
      next free =>
        cases retires
        exact grants_putEntry found (fun own => absurd (not_ne_iff.mp free) (blocked found own))
          granted
  | snapshot id =>
      obtain ⟨entry, found, reads⟩ := Option.bind_eq_some_iff.mp executed
      cases reads
      exact granted
  | persistFenced accountId tokens revision =>
      obtain ⟨refresh, persist⟩ := oracle
      cases persist with
      | ok _ => cases executed; exact granted
      | error code => cases executed; exact granted
  | guardRevision other =>
      obtain ⟨entry, found, reads⟩ := Option.bind_eq_some_iff.mp executed
      split at reads
      · cases reads
        exact grants_putEntry found (fun _ => ⟨rfl, rfl⟩) granted
      · cases reads
        exact granted
  | _ =>
      cases executed
      exact granted

private theorem grants_leave {revision : TokenDispatchRevision}
    (granted : authority.grants revision = true) :
    (authority.leave task).grants revision = true := by
  obtain ⟨entry, found, isActive, number⟩ := grants_iff.mp granted
  exact grants_iff.mpr ⟨_, leave_found found, isActive, number⟩

end TokenAuthority

namespace AuthorityPool

open TokenAuthority

/-- No action of the event takes effect on the slot. -/
def Undisturbed (pool : AuthorityPool) (event : AuthorityEvent) (id : EntryId) : Prop :=
  ∀ task oracle action next after response, event = .resume task oracle →
    pool.task task = some (.perform action next) →
    pool.shared.execute task action oracle = some (after, response) →
    ¬pool.shared.Disturbs id action response

/-- The task is at `guard` of the revision, and `guard` returns `Some`. -/
def Guards (pool : AuthorityPool) (task : TaskId) (revision : TokenDispatchRevision) : Prop :=
  pool.nextAction task = some (.guardRevision revision) ∧ pool.shared.grants revision = true

/-- Through all of `events` the token is what its slot holds, and nothing takes effect
on the slot. -/
structure CurrentThrough (pool : AuthorityPool) (events : List AuthorityEvent)
    (accountId : String) (prepared : PreparedToken) : Prop where
  current : ∀ middle, middle <+: events →
    (pool.run middle).shared.IsCurrent accountId prepared
  undisturbed : ∀ middle event, middle ++ [event] <+: events →
    (pool.run middle).Undisturbed event prepared.dispatchRevision.entry

abbrev Disciplined (pool : AuthorityPool) : Prop := dispatchDiscipline.Holds pool

theorem Disciplined.step {pool : AuthorityPool} (holds : pool.Disciplined)
    (event : AuthorityEvent) : (pool.step event).Disciplined :=
  Discipline.step holds fun _ _ _ => trivial

theorem Disciplined.run {pool : AuthorityPool} (holds : pool.Disciplined)
    (events : List AuthorityEvent) : (pool.run events).Disciplined :=
  Discipline.run holds fun _ _ _ => trivial

variable {pool : AuthorityPool} {accountId : String} {prepared : PreparedToken}

theorem Disciplined.moves (holds : pool.Disciplined) (event : AuthorityEvent) :
    ∃ task, Moves task pool.shared (pool.step event).shared := by
  cases TaskPool.step_shared machine AuthorityOperation.program pool event with
  | idle same =>
      refine ⟨0, ?_⟩
      rw [AuthorityPool.step, same]
      exact .of_entries rfl fun _ _ held => ⟨held, rfl⟩
  | left task same =>
      refine ⟨task, ?_⟩
      rw [AuthorityPool.step, same]
      exact leave_moves pool.shared task
  | performed task oracle action response next resumed runs executed =>
      obtain ⟨phases, phase, invariant, reached, allowed⟩ := Discipline.Holds.performing holds runs
      exact ⟨task, (DispatchInvariant.executes invariant reached allowed executed).moves⟩

theorem Disciplined.granted_before (holds : pool.Disciplined)
    (issued : .prepared accountId (.ok prepared) ∈ pool.results) {event : AuthorityEvent}
    (granted : (pool.step event).shared.grants prepared.dispatchRevision = true) :
    pool.shared.grants prepared.dispatchRevision = true := by
  obtain ⟨task, moves⟩ := holds.moves event
  obtain ⟨phases, invariant, -⟩ := holds
  exact DispatchInvariant.granted_before invariant issued moves granted

theorem Disciplined.undisturbed (holds : pool.Disciplined)
    (issued : .prepared accountId (.ok prepared) ∈ pool.results) {event : AuthorityEvent}
    (granted : (pool.step event).shared.grants prepared.dispatchRevision = true) :
    pool.Undisturbed event prepared.dispatchRevision.entry := by
  rintro task oracle action next after response rfl runs executed
  have before := holds.granted_before issued granted
  obtain ⟨phases, phase, invariant, reached, allowed⟩ := Discipline.Holds.performing holds runs
  refine DispatchInvariant.undisturbed invariant issued before reached allowed executed ?_
  have stepped : (pool.step (.resume task oracle)).shared = after := by
    simp only [AuthorityPool.step, TaskPool.step, runs]
    rw [show machine.execute pool.shared task action oracle = some (after, response) from executed]
  rwa [stepped] at granted

/-- Whatever is granted in the end was current, and left alone, all along. -/
private theorem Disciplined.currentThrough (holds : pool.Disciplined)
    (issued : .prepared accountId (.ok prepared) ∈ pool.results) {events : List AuthorityEvent}
    (granted : (pool.run events).shared.grants prepared.dispatchRevision = true) :
    pool.CurrentThrough events accountId prepared := by
  induction events generalizing pool with
  | nil =>
    obtain ⟨phases, invariant, -⟩ := holds
    refine ⟨?_, ?_⟩
    · intro middle initially
      obtain rfl : middle = [] := List.prefix_nil.mp initially
      exact DispatchInvariant.isCurrent invariant issued granted
    · intro middle event initially
      simp at initially
  | cons event events ih =>
    have later := ih (holds.step event)
      (TaskPool.results_step machine AuthorityOperation.program pool event issued) granted
    have next : (pool.step event).shared.grants prepared.dispatchRevision = true :=
      (later.current [] List.nil_prefix).grants
    refine ⟨?_, ?_⟩
    · intro middle initially
      rcases List.prefix_cons_iff.mp initially with rfl | ⟨rest, rfl, shorter⟩
      · obtain ⟨phases, invariant, -⟩ := id holds
        exact DispatchInvariant.isCurrent invariant issued (holds.granted_before issued next)
      · exact later.current rest shorter
    · intro middle other initially
      cases middle with
      | nil =>
          obtain rfl : other = event := (List.cons_prefix_cons.mp initially).1
          exact holds.undisturbed issued next
      | cons first rest =>
          obtain ⟨rfl, shorter⟩ := List.cons_prefix_cons.mp initially
          exact later.undisturbed rest other shorter

/-- A task that got the guard keeps the revision granted for as long as it has it. -/
private theorem Disciplined.granted_while_guarded (holds : pool.Disciplined) {guardTask : TaskId}
    {revision : TokenDispatchRevision} (granted : pool.shared.grants revision = true)
    {events : List AuthorityEvent}
    (guarded : Execution.Along AuthorityPool.step
      (fun pool _ => pool.shared.holdsGuard guardTask revision.entry = true) pool events) :
    (pool.run events).shared.grants revision = true := by
  have preserved : ∀ (pool : AuthorityPool) (event : AuthorityEvent),
      pool.Disciplined ∧ pool.shared.grants revision = true →
      pool.shared.holdsGuard guardTask revision.entry = true →
      (pool.step event).Disciplined ∧ (pool.step event).shared.grants revision = true := by
    rintro pool event ⟨holds, granted⟩ guarded
    refine ⟨holds.step event, ?_⟩
    cases TaskPool.step_shared machine AuthorityOperation.program pool event with
    | idle same =>
        rw [AuthorityPool.step, same]
        exact granted
    | left task same =>
        rw [AuthorityPool.step, same]
        exact grants_leave granted
    | performed task oracle action response next resumed runs executed =>
        obtain ⟨phases, invariant, -⟩ := holds
        exact guarded_execute (invariant.map.fresh _ (Nat.le_refl _)) guarded granted executed
  exact (guarded.run_invariant _ preserved ⟨holds, granted⟩).2

/-- The guard itself leaves the revision as it found it. -/
theorem Guards.granted {guardTask : TaskId} {revision : TokenDispatchRevision}
    (guards : pool.Guards guardTask revision) (oracle : AdapterOracle) :
    (pool.step (.resume guardTask oracle)).shared.grants revision = true := by
  obtain ⟨reached, granted⟩ := guards
  obtain ⟨remaining, runs, acts⟩ := Option.bind_eq_some_iff.mp reached
  cases remaining with
  | done result => cases acts
  | perform action next =>
      obtain rfl : action = .guardRevision revision := Option.some.inj acts
      obtain ⟨entry, found, -⟩ := grants_iff.mp granted
      have executed : pool.shared.execute guardTask (.guardRevision revision) oracle =
          some (pool.shared.putEntry revision.entry
            { entry with guards := guardTask :: entry.guards }, true) := by
        rw [execute, found, Option.bind_some, if_pos granted]
      simp only [AuthorityPool.step, TaskPool.step, runs, machine, executed]
      exact grants_putEntry found (fun _ => ⟨rfl, rfl⟩) granted

/-- A token whose guard is granted has been current, and its slot left alone, since it
was handed out, and both stay so for as long as the guard is held. -/
theorem dispatched_token_is_current {maxAccounts : Nat} {start : TokenAuthority}
    (accepted : TokenAuthority.new maxAccounts = .ok start)
    (before after during : List AuthorityEvent) {accountId : String} {prepared : PreparedToken}
    (issued : .prepared accountId (.ok prepared) ∈ (run (.init start) before).results)
    {guardTask : TaskId} (oracle : AdapterOracle)
    (guards : (run (.init start) (before ++ after)).Guards guardTask prepared.dispatchRevision)
    (guarded : Execution.Along step
      (fun pool _ => pool.shared.holdsGuard guardTask prepared.dispatchRevision.entry = true)
      (run (.init start) (before ++ after ++ [.resume guardTask oracle])) during) :
    (run (.init start) before).CurrentThrough (after ++ .resume guardTask oracle :: during)
      accountId prepared := by
  have holds (events : List AuthorityEvent) : (run (.init start) events).Disciplined :=
    Disciplined.run (Discipline.init (new_invariant accepted)) events
  have split (events more : List AuthorityEvent) :
      run (.init start) (events ++ more) = run (run (.init start) events) more :=
    Execution.run_append _ _ events more
  have atGuard : (run (.init start) (before ++ after ++ [.resume guardTask oracle])).shared.grants
      prepared.dispatchRevision = true := by
    rw [split]
    exact guards.granted oracle
  have inTheEnd := (holds _).granted_while_guarded atGuard guarded
  refine (holds before).currentThrough issued ?_
  rw [← split, List.append_assoc] at inTheEnd
  rw [← split]
  simpa using inTheEnd

/-- An operation that is resumed `count` times; the provider is away. -/
def starting (task : TaskId) (operation : AuthorityOperation) (count : Nat) :
    List AuthorityEvent :=
  .spawn task operation ::
    List.replicate count (.resume task ⟨.error ⟨.transient, "provider_timeout"⟩, .ok ()⟩)

/-- An invalidation that starts during a dispatch waits for the guard. -/
theorem dispatched_during_invalidation :
    ∃ start, TokenAuthority.new 1 = .ok start ∧
      (run (.init start)
        (starting 0 (.register "account" ⟨"access", some "refresh", none, some 60, 0, 0⟩ .active) 12 ++
          starting 1 (.prepare "account" 10 5) 12)).CurrentThrough
        (starting 2 (.dispatch ⟨0, 0⟩) 0 ++
          .resume 2 ⟨.error ⟨.transient, "provider_timeout"⟩, .ok ()⟩ ::
            starting 3 (.invalidateAccessAndPersist "account" 20) 20) "account"
        ⟨.ready, ⟨"access", some "refresh", none, some 60, 0, 0⟩, ⟨0, 0⟩⟩ :=
  ⟨_, rfl, @dispatched_token_is_current 1 _ rfl _ _ _ _ _ (by decide +kernel) _ _
    ⟨by decide +kernel, by decide +kernel⟩ (by decide +kernel)⟩

end AuthorityPool

end ZenithRelay.Accounts
