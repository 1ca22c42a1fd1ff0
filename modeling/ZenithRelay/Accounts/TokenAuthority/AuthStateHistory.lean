import ZenithRelay.Accounts.TokenAuthority.AuthStateInvariant

/-!
# The states that a slot went through

What the holder of a slot knows of its earlier states, and that every step of a `prepare`
keeps it.
-/

set_option autoImplicit false

namespace ZenithRelay.Accounts

/-- The state before the last marker, of states with the newest first. -/
def beforeMarker (states : List AccountAuthState) : Option AccountAuthState :=
  (states.dropWhile (· ≠ .refreshing)).find? (· ≠ .refreshing)

private theorem beforeMarker_other {state : AccountAuthState} (other : state ≠ .refreshing)
    (states : List AccountAuthState) : beforeMarker (state :: states) = beforeMarker states := by
  simp [beforeMarker, other]

private theorem beforeMarker_marked (states : List AccountAuthState) :
    beforeMarker (.refreshing :: states) = states.find? (· ≠ .refreshing) := by
  simp [beforeMarker]

private theorem beforeMarker_new {state : AccountAuthState} {states : List AccountAuthState}
    (newest : states.head? = some state) (other : state ≠ .refreshing) :
    beforeMarker (.refreshing :: states) = some state := by
  obtain ⟨rest, rfl⟩ := List.head?_eq_some_iff.mp newest
  simp [beforeMarker_marked, other]

/-- A state that is seen again. -/
private theorem beforeMarker_again {state : AccountAuthState} {states : List AccountAuthState}
    (newest : states.head? = some state) : beforeMarker (state :: states) = beforeMarker states := by
  by_cases marked : state = .refreshing
  · obtain ⟨rest, rfl⟩ := List.head?_eq_some_iff.mp newest
    rw [marked, beforeMarker_marked, beforeMarker_marked]
    simp
  · exact beforeMarker_other marked states

theorem beforeMarker_unmarked {states : List AccountAuthState} {state : AccountAuthState}
    (found : beforeMarker states = some state) : state ≠ .refreshing := by
  simpa using List.find?_some found

namespace TokenAuthority

open DurabilityInvariant

def authStateOf (authority : TokenAuthority) (id : EntryId) : Option AccountAuthState :=
  (authority.slotAt id).map fun owned => owned.2.authState

/-- The states of the slots with those of now. -/
def observe (authority : TokenAuthority) (states : EntryId → List AccountAuthState)
    (id : EntryId) : List AccountAuthState :=
  (authority.authStateOf id).toList ++ states id

/-- What the holder of a slot knows of its states. -/
structure Recalls (authority : TokenAuthority) (states : List AccountAuthState) (held : HeldState) :
    Prop where
  stuck : held.stuck = true → authority.Spent held.id
  uncounted : held.previous = none → held.counted = false →
    held.content.authState = .refreshing → authority.Spent held.id
  counted : held.previous = none → held.counted = true → held.content.authState ≠ .refreshing
  marked : ∀ previous, held.previous = some previous → beforeMarker states = some previous

/-- The slots with their states so far. A slot that nobody holds carries the marker only
at the end of its revisions. -/
structure Traced (states : EntryId → List AccountAuthState) (authority : TokenAuthority)
    (phases : TaskId → Option AuthStatePhase) : Prop where
  now : ∀ id state, authority.authStateOf id = some state → (states id).head? = some state
  free : ∀ id, authority.authStateOf id = some .refreshing →
    (∀ task held, phases task = some (.holding held) → held.id ≠ id) → authority.Spent id
  held : ∀ task held, phases task = some (.holding held) → authority.Recalls (states held.id) held

variable {authority after : TokenAuthority} {task : TaskId} {phase next : AuthStatePhase}
  {slots : BTreeMap String EntryId} {phases : TaskId → Option AuthStatePhase}
  {states : EntryId → List AccountAuthState}

theorem observe_now (authority : TokenAuthority) (states : EntryId → List AccountAuthState)
    {id : EntryId} {state : AccountAuthState} (now : authority.authStateOf id = some state) :
    (authority.observe states id).head? = some state := by
  rw [observe, now]
  rfl

/-- A slot whose state did not change. -/
private theorem Traced.again (traced : Traced states authority phases) {id : EntryId}
    (same : after.authStateOf id = authority.authStateOf id) :
    beforeMarker (after.observe states id) = beforeMarker (states id) := by
  rw [observe, same]
  cases now : authority.authStateOf id with
  | none => rfl
  | some state => exact beforeMarker_again (traced.now id state now)

private theorem authStateOf_congr {id : EntryId} (same : after.slotAt id = authority.slotAt id) :
    after.authStateOf id = authority.authStateOf id := by
  rw [authStateOf, same]
  rfl

theorem authStateOf_held (invariant : AuthStateInvariant slots authority phases)
    {held : HeldState} (reached : phases task = some (.holding held)) :
    authority.authStateOf held.id = some held.content.authState := by
  rw [authStateOf, (invariant.held task held reached).1]
  rfl

private theorem Recalls.mono {held : HeldState} {earlier later : List AccountAuthState}
    (recalls : authority.Recalls earlier held) (spent : authority.Spent held.id → after.Spent held.id)
    (same : beforeMarker later = beforeMarker earlier) : after.Recalls later held :=
  ⟨fun stuck => spent (recalls.stuck stuck),
    fun none_ uncounted marked => spent (recalls.uncounted none_ uncounted marked), recalls.counted,
    fun previous marked => same.trans (recalls.marked previous marked)⟩

/-- A task that keeps its slot holds no other one. -/
private theorem outside_of_same {held moved : HeldState} {id : EntryId}
    (outside : ∀ own, AuthStatePhase.holding moved = .holding own → own.id ≠ id)
    (same : moved.id = held.id) : ∀ own, AuthStatePhase.holding held = .holding own → own.id ≠ id := by
  rintro _ ⟨⟩
  exact same ▸ outside moved rfl

namespace Traced

/-- A step of one task, which leaves the states of the slots that it does not hold. -/
private theorem of_step (traced : Traced states authority phases)
    (reached : phases task = some phase) (spent : ∀ id, authority.Spent id → after.Spent id)
    (same : ∀ id, (∀ held, next = .holding held → held.id ≠ id) →
      after.authStateOf id = authority.authStateOf id ∧ ∀ held, phase = .holding held → held.id ≠ id)
    (own : ∀ held, next = .holding held → after.Recalls (after.observe states held.id) held)
    (others : ∀ other held, other ≠ task → phases other = some (.holding held) →
      after.authStateOf held.id = authority.authStateOf held.id) :
    Traced (after.observe states) after (Function.update phases task (some next)) where
  now _ _ := observe_now after states
  free id marked unheld := by
    obtain ⟨state, outside⟩ := same id fun held holds =>
      unheld task held (by rw [Function.update_self, holds])
    refine spent id (traced.free id (state ▸ marked) fun other held runs => ?_)
    by_cases self : other = task
    · rw [self, reached] at runs
      exact outside held (Option.some.inj runs)
    · exact unheld other held (by rw [Function.update_of_ne self, runs])
  held other held runs := by
    by_cases self : other = task
    · rw [self, Function.update_self] at runs
      exact own held (Option.some.inj runs)
    · rw [Function.update_of_ne self] at runs
      exact (traced.held other held runs).mono (spent held.id)
        (traced.again (others other held self runs))

/-- A write continues the states. -/
private theorem written {held : HeldState} (recalls : authority.Recalls (states held.id) held)
    {slot : TokenSlot} (writes : held.Writes slot) (quiet : held.content.Quiet)
    (newest : (states held.id).head? = some held.content.authState)
    (spent : authority.Spent held.id → after.Spent held.id)
    (now : after.authStateOf held.id = some slot.authState) :
    after.Recalls (after.observe states held.id) (held.write slot) := by
  have marks := (writes quiet).2
  have seen : after.observe states held.id = slot.authState :: states held.id := by
    rw [observe, now]
    rfl
  refine ⟨fun stuck => spent (recalls.stuck stuck), fun _ uncounted marked => ?_,
    fun unmarked counted marked => ?_, fun previous same => ?_⟩
  · have counted : held.counted = true := (marks marked).1
    rw [show held.counted = false from uncounted] at counted
    cases counted
  · have both : held.counted = true ∧ slot.authState = .refreshing := ⟨counted, marked⟩
    rw [HeldState.write, if_pos both, Option.or_some] at unmarked
    cases unmarked
  · rw [seen]
    rw [HeldState.write] at same
    cases earlier : held.previous with
    | some first =>
      rw [earlier, Option.some_or] at same
      cases same
      have known := recalls.marked previous earlier
      have other : slot.authState ≠ .refreshing := fun marked =>
        beforeMarker_unmarked known ((marks marked).2 previous earlier)
      rw [beforeMarker_other other, known]
    | none =>
      rw [earlier, Option.none_or] at same
      obtain ⟨⟨counted, marked⟩, content⟩ := Option.ite_none_right_eq_some.mp same
      rw [marked, ← content]
      exact beforeMarker_new newest (recalls.counted earlier counted)

theorem executes (traced : Traced states authority phases)
    (invariant : AuthStateInvariant slots authority phases)
    (trimmed : ∀ (account : String) (id : EntryId), slots[account]? = some id →
      Text.trim account = account) (reached : phases task = some phase)
    (effect : AuthStateEffect task authority after phase next) :
    Traced (after.observe states) after (Function.update phases task (some next)) := by
  cases effect with
  | keeps entries spent =>
    refine traced.of_step reached spent (fun id outside => ⟨authStateOf_congr (entries id), outside⟩)
      (fun held holds => ?_) fun _ held _ _ => authStateOf_congr (entries held.id)
    exact (traced.held task held (holds ▸ reached)).mono (spent held.id)
      (traced.again (authStateOf_congr (entries held.id)))
  | asks account same =>
    subst same
    exact traced.of_step reached (fun _ => id) (fun _ _ => ⟨rfl, fun _ holds => by cases holds⟩)
      (fun _ holds => by cases holds) fun _ _ _ _ => rfl
  | @looks held account own same =>
    subst same
    have known := (invariant.held task held reached).2
    have found : slots[account]? = some held.id := by
      rcases own with rfl | rfl
      · exact known
      · rw [trimmed _ _ known, known]
    refine traced.of_step reached (fun _ => id)
      (fun id outside => ⟨rfl, outside_of_same outside rfl⟩) ?_ fun _ _ _ _ => rfl
    rintro _ ⟨⟩
    rw [invariant.registered, found]
    simp only [ne_eq, not_true_eq_false, decide_false, Bool.or_false]
    exact (traced.held task held reached).mono id (traced.again rfl)
  | @locks account id content free entries spent =>
    have unheld (other : TaskId) (held : HeldState) (runs : phases other = some (.holding held)) :
        held.id ≠ id := by
      rintro rfl
      have present := (invariant.held other held runs).1
      rw [free] at present
      cases present
    have apart {other : EntryId} (different : other ≠ id) :
        after.authStateOf other = authority.authStateOf other :=
      authStateOf_congr ((entries other).trans (if_neg different))
    refine traced.of_step reached spent (fun other outside => ⟨apart ?_, fun _ holds => by cases holds⟩)
      ?_ fun other held _ runs => apart (unheld other held runs)
    · have apart := outside _ rfl
      exact apart.symm
    · rintro _ ⟨⟩
      refine ⟨fun stuck => (by cases stuck), fun _ _ marked => spent id (traced.free id ?_ unheld),
        fun _ counted => (by cases counted), fun _ marked => (by cases marked)⟩
      rw [authStateOf, free]
      exact congrArg some marked
  | @writes held slot allowed entries spent =>
    have present := (invariant.held task held reached).1
    have apart {other : EntryId} (different : other ≠ held.id) :
        after.authStateOf other = authority.authStateOf other :=
      authStateOf_congr ((entries other).trans (if_neg different))
    refine traced.of_step reached spent
      (fun other outside => ⟨apart ?_, outside_of_same outside rfl⟩) ?_
      fun other taken different runs => apart fun same => ?_
    · have apart := outside _ rfl
      exact apart.symm
    · rintro _ ⟨⟩
      refine written (traced.held task held reached) allowed (invariant.quiet _ _ _ present)
        (traced.now _ _ (authStateOf_held invariant reached)) (spent held.id) ?_
      rw [authStateOf, entries, if_pos rfl, present]
      rfl
    · have owner := invariant.apart runs (same ▸ present)
      exact different (Option.some.inj owner).symm
  | @counts held entries spent unspent =>
    have recalls := (traced.held task held reached).mono (spent held.id)
      (traced.again (authStateOf_congr (entries held.id)))
    refine traced.of_step reached spent
      (fun id outside => ⟨authStateOf_congr (entries id), outside_of_same outside rfl⟩) ?_
      fun _ held _ _ => authStateOf_congr (entries held.id)
    rintro _ ⟨⟩
    refine ⟨recalls.stuck, fun _ uncounted => (by cases uncounted), fun unmarked _ marked => ?_,
      recalls.marked⟩
    cases counted : held.counted with
    | true => exact recalls.counted unmarked counted marked
    | false => exact unspent ((traced.held task held reached).uncounted unmarked counted marked)
  | @exhausts held same spent =>
    subst same
    have recalls := (traced.held task held reached).mono id (traced.again rfl)
    refine traced.of_step reached (fun _ => id)
      (fun id outside => ⟨rfl, outside_of_same outside rfl⟩) ?_ fun _ _ _ _ => rfl
    rintro _ ⟨⟩
    exact ⟨fun _ => spent, recalls.uncounted, recalls.counted, recalls.marked⟩

/-- A task that gives up what it holds. -/
theorem leave (traced : Traced states authority phases)
    (invariant : AuthStateInvariant slots authority phases) (reached : phases task = some phase)
    (left : phase.Left) : Traced ((authority.leave task).observe states) (authority.leave task)
      (Function.update phases task none) := by
  have same (id : EntryId) : (authority.leave task).authStateOf id = authority.authStateOf id := by
    rw [authStateOf, slotAt_leave, authStateOf]
    cases authority.slotAt id <;> rfl
  have spent {id : EntryId} (ended : authority.Spent id) : (authority.leave task).Spent id := by
    obtain ⟨entry, found, full⟩ := ended
    refine ⟨entry.releasedBy task, ?_, full⟩
    rw [TokenAuthority.leave]
    simp [found]
  refine ⟨fun _ _ => observe_now _ states, fun id marked unheld => ?_, fun other held runs => ?_⟩
  · rw [same] at marked
    by_cases own : ∃ held, phase = .holding held ∧ held.id = id
    · obtain ⟨held, rfl, rfl⟩ := own
      have recalls := traced.held task held reached
      have content : held.content.authState = .refreshing := by
        rw [authStateOf_held invariant reached] at marked
        exact Option.some.inj marked
      cases previous : held.previous with
      | some state =>
        have other := beforeMarker_unmarked (recalls.marked state previous)
        exact spent (recalls.stuck (left content state previous other))
      | none =>
        cases counted : held.counted with
        | true => exact absurd content (recalls.counted previous counted)
        | false => exact spent (recalls.uncounted previous counted content)
    · refine spent (traced.free id marked fun other held runs same => ?_)
      by_cases self : other = task
      · rw [self, reached] at runs
        exact own ⟨held, Option.some.inj runs, same⟩
      · exact unheld other held (by rw [Function.update_of_ne self, runs]) same
  · by_cases self : other = task
    · rw [self, Function.update_self] at runs
      cases runs
    · rw [Function.update_of_ne self] at runs
      exact (traced.held other held runs).mono spent (traced.again (same held.id))

theorem spawns (traced : Traced states authority phases) (absent : phases task = none) :
    Traced (authority.observe states) authority
      (Function.update phases task (some (.asking none))) := by
  refine ⟨fun _ _ => observe_now _ states, fun id marked unheld => ?_, fun other held runs => ?_⟩
  · refine traced.free id marked fun other held runs => unheld other held ?_
    have different : other ≠ task := by
      rintro rfl
      rw [absent] at runs
      cases runs
    rw [Function.update_of_ne different, runs]
  · by_cases self : other = task
    · rw [self, Function.update_self] at runs
      cases runs
    · rw [Function.update_of_ne self] at runs
      exact (traced.held other held runs).mono id (traced.again rfl)

theorem idle (traced : Traced states authority phases) :
    Traced (authority.observe states) authority phases :=
  ⟨fun _ _ => observe_now _ states, traced.free, fun other held runs =>
    (traced.held other held runs).mono id (traced.again rfl)⟩

end Traced

end TokenAuthority

end ZenithRelay.Accounts
