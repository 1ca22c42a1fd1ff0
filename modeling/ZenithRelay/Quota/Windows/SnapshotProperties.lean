import ZenithRelay.Foundations.NewestWins
import ZenithRelay.Quota.Windows.Snapshot

/-!
# Quota publication converges

A snapshot seen as four registers, each the newest observation of its resource by
its own clock: merging a complete observation is hearing it in every register.
-/

set_option autoImplicit false

namespace ZenithRelay.Quota

namespace QuotaSnapshot

/-- The remainder of a window. -/
def remainder (window : QuotaWindow) : Stamped (Option Nat) :=
  ⟨window.availableBasisPoints, window.observedAtMs⟩

structure Ledger where
  availableCreditsMicroUnits : Option Nat
  providerCreditsAvailable : Bool
  providerCreditsUnlimited : Bool
  deriving DecidableEq, Repr

/-- The provider ledger, when it is dated. -/
def ledger (snapshot : QuotaSnapshot) : Option (Stamped Ledger) :=
  snapshot.providerCreditsObservedAtMs.map fun clock =>
    ⟨⟨snapshot.availableCreditsMicroUnits, snapshot.providerCreditsAvailable,
      snapshot.providerCreditsUnlimited⟩, clock⟩

/-- An absent clock counts as zero, as the preference reads it. -/
def updatedClock (snapshot : QuotaSnapshot) : Nat := snapshot.updatedAtMs.getD 0

/-- What a complete observation says of each resource. -/
structure Observation where
  primary : Stamped (Option Nat)
  secondary : Stamped (Option Nat)
  ledger : Stamped Ledger
  updated : Nat

structure Observes (snapshot : QuotaSnapshot) (observation : Observation) : Prop where
  primary : snapshot.primary.map remainder = some observation.primary
  secondary : snapshot.secondary.map remainder = some observation.secondary
  ledger : snapshot.ledger = some observation.ledger
  updated : snapshot.updatedClock = observation.updated

/-- The snapshot carries both windows and a dated ledger. -/
structure Complete (snapshot : QuotaSnapshot) : Prop where
  primary : snapshot.primary ≠ none
  secondary : snapshot.secondary ≠ none
  ledger : snapshot.providerCreditsObservedAtMs ≠ none

theorem Complete.observes {snapshot : QuotaSnapshot} (complete : snapshot.Complete) :
    ∃ observation, snapshot.Observes observation := by
  obtain ⟨primary, hasPrimary⟩ := Option.ne_none_iff_exists'.mp complete.primary
  obtain ⟨secondary, hasSecondary⟩ := Option.ne_none_iff_exists'.mp complete.secondary
  obtain ⟨clock, dated⟩ := Option.ne_none_iff_exists'.mp complete.ledger
  exact ⟨⟨remainder primary, remainder secondary, ⟨⟨snapshot.availableCreditsMicroUnits,
      snapshot.providerCreditsAvailable, snapshot.providerCreditsUnlimited⟩, clock⟩,
      snapshot.updatedClock⟩,
    by rw [hasPrimary]; rfl, by rw [hasSecondary]; rfl, by rw [QuotaSnapshot.ledger, dated]; rfl,
    rfl⟩

theorem Observes.complete {snapshot : QuotaSnapshot} {observation : Observation}
    (observes : snapshot.Observes observation) : snapshot.Complete := by
  obtain ⟨primary, secondary, dated, -⟩ := observes
  refine ⟨fun absent => ?_, fun absent => ?_, fun absent => ?_⟩
  · simp [absent] at primary
  · simp [absent] at secondary
  · simp [QuotaSnapshot.ledger, absent] at dated

private theorem mergeWindowObservation_remainder (current incoming : QuotaWindow) (incomingWins : Bool) :
    remainder (mergeWindowObservation current incoming incomingWins) =
      NewestWins.hear (some (remainder current)) (remainder incoming) := by
  rw [mergeWindowObservation, NewestWins.hear]
  by_cases newer : current.observedAtMs < incoming.observedAtMs
  · simp [newer, remainder]
  · simp only [newer, if_false]
    rw [if_neg (show ¬(remainder current).clock < (remainder incoming).clock from newer)]
    split <;> rfl

/-- A window that the observation carries is heard whatever the preference. -/
theorem mergeWindow_remainder {current incoming preferred : Option QuotaWindow}
    {incomingWins : Bool} {heard : Stamped (Option Nat)}
    (carried : incoming.map remainder = some heard)
    (first : current = none → preferred = incoming) :
    (mergeWindow current incoming preferred incomingWins).map remainder =
      some (NewestWins.hear (current.map remainder) heard) := by
  obtain ⟨window, rfl, rfl⟩ := Option.map_eq_some_iff.mp carried
  cases current with
  | none => simp [mergeWindow, first rfl, NewestWins.hear]
  | some current => simp [mergeWindow, mergeWindowObservation_remainder]

theorem ledger_copyProviderCredits (snapshot incoming : QuotaSnapshot) :
    (snapshot.copyProviderCredits incoming).ledger = incoming.ledger := rfl

/-- A dated ledger is heard by its own clock. -/
private theorem ledger_mergeProviderCredits {snapshot incoming : QuotaSnapshot} {heard : Stamped Ledger}
    (carried : incoming.ledger = some heard) :
    (snapshot.mergeProviderCredits incoming).1.ledger =
      some (NewestWins.hear snapshot.ledger heard) := by
  obtain ⟨clock, dated, rfl⟩ := Option.map_eq_some_iff.mp carried
  rw [mergeProviderCredits, dated]
  simp only
  cases own : snapshot.providerCreditsObservedAtMs with
  | none =>
    rw [if_neg (by simp), ledger_copyProviderCredits, carried]
    simp [ledger, own, NewestWins.hear]
  | some current =>
    by_cases older : clock ≤ current
    · rw [if_pos (by simpa using older)]
      simp [ledger, own, NewestWins.hear, Nat.not_lt.mpr older]
    · rw [if_neg (by simpa using older), ledger_copyProviderCredits, carried]
      simp [ledger, own, NewestWins.hear, Nat.not_le.mp older]

@[simp] theorem mergeProviderCredits_primary (snapshot incoming : QuotaSnapshot) :
    (snapshot.mergeProviderCredits incoming).1.primary = snapshot.primary := by
  rw [mergeProviderCredits]
  split
  next => rfl
  next => split <;> rfl

@[simp] theorem mergeProviderCredits_secondary (snapshot incoming : QuotaSnapshot) :
    (snapshot.mergeProviderCredits incoming).1.secondary = snapshot.secondary := by
  rw [mergeProviderCredits]
  split
  next => rfl
  next => split <;> rfl

@[simp] theorem mergeProviderCredits_updatedAtMs (snapshot incoming : QuotaSnapshot) :
    (snapshot.mergeProviderCredits incoming).1.updatedAtMs = snapshot.updatedAtMs := by
  rw [mergeProviderCredits]
  split
  next => rfl
  next => split <;> rfl

/-- The snapshots that observations are folded into: empty, or complete. -/
def Foldable (snapshot : QuotaSnapshot) : Prop := snapshot = unobserved ∨ snapshot.Complete

/-- Merging a complete observation is hearing it in every register. -/
theorem mergeObservation_observes {snapshot incoming : QuotaSnapshot} {heard : Observation}
    (observed : incoming.Observes heard) (foldable : snapshot.Foldable) :
    (snapshot.mergeObservation incoming).Observes
      ⟨NewestWins.hear (snapshot.primary.map remainder) heard.primary,
        NewestWins.hear (snapshot.secondary.map remainder) heard.secondary,
        NewestWins.hear snapshot.ledger heard.ledger,
        max snapshot.updatedClock heard.updated⟩ := by
  obtain ⟨primary, secondary, dated, updated⟩ := observed
  rw [mergeObservation, mergeObservationWithPreference]
  generalize wins : decide (snapshot.updatedAtMs.getD 0 ≤ incoming.updatedAtMs.getD 0) =
    incomingWins
  -- an empty snapshot has clock zero, so every observation is preferred to it
  have preferred (empty : snapshot = unobserved) :
      (if incomingWins then incoming else snapshot) = incoming := by
    subst empty
    simp [← wins, unobserved]
  have clock : (if incomingWins then incoming else snapshot).updatedAtMs.getD 0 =
      max snapshot.updatedClock heard.updated := by
    rw [← updated, updatedClock, updatedClock]
    cases incomingWins with
    | true =>
      have order := of_decide_eq_true wins
      simp [order]
    | false =>
      have order := of_decide_eq_false wins
      simp [(Nat.not_le.mp order).le]
  simp only
  generalize (if incomingWins then incoming else snapshot) = chosen at preferred clock ⊢
  have primaryHeard := @mergeWindow_remainder snapshot.primary incoming.primary chosen.primary
    incomingWins heard.primary primary fun absent => congrArg QuotaSnapshot.primary
      (preferred (foldable.resolve_right fun complete => complete.primary absent))
  have secondaryHeard := @mergeWindow_remainder snapshot.secondary incoming.secondary
    chosen.secondary incomingWins heard.secondary secondary fun absent =>
      congrArg QuotaSnapshot.secondary
        (preferred (foldable.resolve_right fun complete => complete.secondary absent))
  constructor
  · rw [mergeProviderCredits_primary, ← primaryHeard]
    split <;> rfl
  · rw [mergeProviderCredits_secondary, ← secondaryHeard]
    split <;> rfl
  · rw [ledger_mergeProviderCredits dated]
    split
    next => rfl
    next undated =>
      have empty : snapshot = unobserved := by
        refine foldable.resolve_right fun complete => complete.ledger ?_
        simpa using undated
      have own : chosen.ledger = some heard.ledger := preferred empty ▸ dated
      have none : snapshot.ledger = none := by rw [empty]; rfl
      refine (congrArg (fun register => some (NewestWins.hear register heard.ledger)) own).trans ?_
      rw [none]
      simp [NewestWins.hear]
  · rw [updatedClock, mergeProviderCredits_updatedAtMs, ← clock]
    split <;> rfl

/-! ### Publication -/

/-- Folds observations into an empty snapshot. -/
def publish (observations : List QuotaSnapshot) : QuotaSnapshot :=
  observations.foldl mergeObservation unobserved

theorem publish_snoc (observations : List QuotaSnapshot) (incoming : QuotaSnapshot) :
    publish (observations ++ [incoming]) = (publish observations).mergeObservation incoming := by
  simp [publish, List.foldl_append]

/-- The resources of a snapshot with their clocks. -/
structure Published where
  primary : Option (Stamped (Option Nat))
  secondary : Option (Stamped (Option Nat))
  ledger : Option (Stamped Ledger)
  updated : Nat
  deriving DecidableEq

def published (snapshot : QuotaSnapshot) : Published :=
  ⟨snapshot.primary.map remainder, snapshot.secondary.map remainder, snapshot.ledger,
    snapshot.updatedClock⟩

/-- The newest of each resource among the observations. -/
def newestOf (observations : List QuotaSnapshot) : Published where
  primary := NewestWins.newest (observations.filterMap fun snapshot =>
    snapshot.primary.map remainder)
  secondary := NewestWins.newest (observations.filterMap fun snapshot =>
    snapshot.secondary.map remainder)
  ledger := NewestWins.newest (observations.filterMap ledger)
  updated := NewestWins.latest (observations.map updatedClock)

/-- Publication is the newest observation of every resource. -/
theorem publish_newest {observations : List QuotaSnapshot}
    (complete : ∀ snapshot ∈ observations, snapshot.Complete) :
    (publish observations).published = newestOf observations ∧
      (publish observations).Foldable := by
  induction observations using List.reverseRecOn with
  | nil => exact ⟨rfl, Or.inl rfl⟩
  | append_singleton observations incoming ih =>
    obtain ⟨earlier, foldable⟩ :=
      ih fun snapshot member => complete snapshot (List.mem_append_left _ member)
    obtain ⟨heard, observes⟩ := (complete incoming (by simp)).observes
    have merged := mergeObservation_observes observes foldable
    obtain ⟨primary, secondary, dated, updated⟩ := observes
    rw [newestOf, published, Published.mk.injEq] at earlier
    obtain ⟨earlierPrimary, earlierSecondary, earlierLedger, earlierUpdated⟩ := earlier
    rw [publish_snoc]
    refine ⟨?_, Or.inr merged.complete⟩
    obtain ⟨mergedPrimary, mergedSecondary, mergedLedger, mergedUpdated⟩ := merged
    rw [newestOf, published, Published.mk.injEq, mergedPrimary, mergedSecondary, mergedLedger,
      mergedUpdated, earlierPrimary, earlierSecondary, earlierLedger, earlierUpdated]
    simp [List.filterMap_append, primary, secondary, dated, updated, NewestWins.newest_snoc,
      NewestWins.latest_snoc]

/-- Observations of a resource with one clock agree on it. -/
structure Agree (observations : List QuotaSnapshot) : Prop where
  primary : NewestWins.Coherent (observations.filterMap fun snapshot =>
    snapshot.primary.map remainder)
  secondary : NewestWins.Coherent (observations.filterMap fun snapshot =>
    snapshot.secondary.map remainder)
  ledger : NewestWins.Coherent (observations.filterMap ledger)

/-- Nothing that the snapshot publishes is older in `later`. -/
structure NotBack (earlier later : Published) : Prop where
  primary : ∀ held ∈ earlier.primary, ∃ next ∈ later.primary, held.clock ≤ next.clock
  secondary : ∀ held ∈ earlier.secondary, ∃ next ∈ later.secondary, held.clock ≤ next.clock
  ledger : ∀ held ∈ earlier.ledger, ∃ next ∈ later.ledger, held.clock ≤ next.clock
  updated : earlier.updated ≤ later.updated

private theorem hear_not_back {Value : Type} {earlier : Option (Stamped Value)}
    (incoming : Stamped Value) :
    ∀ held ∈ earlier, ∃ next ∈ some (NewestWins.hear earlier incoming),
      held.clock ≤ next.clock := by
  rintro held ⟨⟩
  exact ⟨_, rfl, NewestWins.clock_le_hear held incoming⟩

private theorem mergeObservation_notBack {snapshot incoming : QuotaSnapshot} (complete : incoming.Complete)
    (foldable : snapshot.Foldable) :
    NotBack snapshot.published (snapshot.mergeObservation incoming).published := by
  obtain ⟨heard, observes⟩ := complete.observes
  obtain ⟨primary, secondary, dated, updated⟩ := mergeObservation_observes observes foldable
  constructor
  · rw [published, published, primary]
    exact hear_not_back heard.primary
  · rw [published, published, secondary]
    exact hear_not_back heard.secondary
  · rw [published, published, dated]
    exact hear_not_back heard.ledger
  · rw [published, published, updated]
    exact Nat.le_max_left _ _

private theorem mem_filterMap_congr {Value : Type} {first second : List QuotaSnapshot}
    (same : ∀ snapshot, snapshot ∈ first ↔ snapshot ∈ second)
    (view : QuotaSnapshot → Option Value) (value : Value) :
    value ∈ first.filterMap view ↔ value ∈ second.filterMap view := by
  simp only [List.mem_filterMap, same]

/-- The same observations, in any order and any number of times, publish alike. -/
theorem newestOf_congr {first second : List QuotaSnapshot} (agree : Agree first)
    (same : ∀ snapshot, snapshot ∈ first ↔ snapshot ∈ second) :
    newestOf first = newestOf second := by
  rw [newestOf, newestOf, Published.mk.injEq]
  refine ⟨?_, ?_, ?_, ?_⟩
  · exact NewestWins.newest_eq_of_mem_iff agree.primary (mem_filterMap_congr same _)
  · exact NewestWins.newest_eq_of_mem_iff agree.secondary (mem_filterMap_congr same _)
  · exact NewestWins.newest_eq_of_mem_iff agree.ledger (mem_filterMap_congr same _)
  · exact NewestWins.latest_eq_of_mem_iff fun clock => by simp only [List.mem_map, same]

/-- `held` is what some observation says of a resource, and none says it later. -/
def Newest {Value : Type} (observations : List QuotaSnapshot)
    (view : QuotaSnapshot → Option (Stamped Value)) (held : Option (Stamped Value)) : Prop :=
  ∃ kept, held = some kept ∧ (∃ snapshot ∈ observations, view snapshot = some kept) ∧
    ∀ snapshot ∈ observations, ∀ other ∈ view snapshot, other.clock ≤ kept.clock

private theorem newest_of_filterMap {Value : Type} {observations : List QuotaSnapshot}
    {view : QuotaSnapshot → Option (Stamped Value)} (nonempty : observations ≠ [])
    (carried : ∀ snapshot ∈ observations, view snapshot ≠ none) :
    Newest observations view (NewestWins.newest (observations.filterMap view)) := by
  obtain ⟨first, member⟩ := List.exists_mem_of_ne_nil observations nonempty
  obtain ⟨heard, said⟩ := Option.ne_none_iff_exists'.mp (carried first member)
  obtain ⟨kept, holds⟩ := NewestWins.newest_isSome
    (List.ne_nil_of_mem (List.mem_filterMap.mpr ⟨first, member, said⟩))
  obtain ⟨own, latest⟩ := NewestWins.newest_spec holds
  refine ⟨kept, holds, List.mem_filterMap.mp own, fun snapshot inside other heard => ?_⟩
  exact latest other (List.mem_filterMap.mpr ⟨snapshot, inside, heard⟩)

/-- Complete observations that agree converge: in any order and under any
repetition they publish the newest observation of each resource, publishing one
again changes nothing, and no clock ever goes back. -/
theorem publication_converges {first second : List QuotaSnapshot}
    (complete : ∀ snapshot ∈ first, snapshot.Complete) (agree : Agree first)
    (same : ∀ snapshot, snapshot ∈ first ↔ snapshot ∈ second) :
    (publish first).published = (publish second).published ∧
    (first ≠ [] →
      Newest first (fun snapshot => snapshot.primary.map remainder)
        (publish first).published.primary ∧
      Newest first (fun snapshot => snapshot.secondary.map remainder)
        (publish first).published.secondary ∧
      Newest first ledger (publish first).published.ledger ∧
      (publish first).published.updated = NewestWins.latest (first.map updatedClock)) ∧
    (∀ snapshot ∈ first,
      ((publish first).mergeObservation snapshot).published = (publish first).published) ∧
    ∀ before snapshot after, first = before ++ snapshot :: after →
      NotBack (publish before).published (publish (before ++ [snapshot])).published := by
  have published := publish_newest complete
  refine ⟨?_, fun nonempty => ?_, fun snapshot member => ?_, ?_⟩
  · have other := publish_newest fun snapshot member => complete snapshot ((same snapshot).mpr member)
    rw [published.1, other.1, newestOf_congr agree same]
  · rw [published.1]
    refine ⟨?_, ?_, ?_, rfl⟩
    · exact newest_of_filterMap nonempty fun snapshot member => by
        simpa using (complete snapshot member).primary
    · exact newest_of_filterMap nonempty fun snapshot member => by
        simpa using (complete snapshot member).secondary
    · exact newest_of_filterMap nonempty fun snapshot member => by
        simpa [ledger] using (complete snapshot member).ledger
  · have again : ∀ other ∈ first ++ [snapshot], other.Complete := by
      intro other inside
      rcases List.mem_append.mp inside with earlier | last
      · exact complete other earlier
      · exact List.mem_singleton.mp last ▸ complete snapshot member
    rw [← publish_snoc, (publish_newest again).1, published.1]
    refine (newestOf_congr agree fun other => ?_).symm
    rw [List.mem_append, List.mem_singleton]
    exact ⟨Or.inl, fun inside => inside.elim id fun own => own ▸ member⟩
  · rintro before snapshot after rfl
    rw [publish_snoc]
    exact mergeObservation_notBack (complete snapshot (by simp))
      (publish_newest fun other member => complete other (by simp [member])).2

/-- An observation of both windows and a ledger at clock `clock`. -/
def observedAt (clock : Nat) (updatedAtMs : Option Nat) : QuotaSnapshot :=
  let window (kind : QuotaWindowKind) : QuotaWindow :=
    ⟨kind, none, none, some clock, none, none, none, clock, none, none⟩
  { unobserved with
    primary := some (window .primary)
    secondary := some (window .secondary)
    providerCreditsObservedAtMs := some clock
    updatedAtMs := updatedAtMs }

theorem reordered_pair_converges :
    (publish [observedAt 1 (some 1), observedAt 2 (some 2)]).published =
      (publish [observedAt 2 (some 2), observedAt 1 (some 1), observedAt 2 (some 2)]).published := by
  refine (publication_converges ?_ ⟨?_, ?_, ?_⟩ ?_).1
  · intro snapshot member
    simp only [List.mem_cons, List.not_mem_nil, or_false] at member
    rcases member with rfl | rfl <;> exact ⟨nofun, nofun, nofun⟩
  · decide
  · decide
  · decide
  · intro snapshot
    simp only [List.mem_cons, List.not_mem_nil, or_false]
    tauto

/-- The snapshot clock itself does not converge where one observation has clock
zero and another has none. -/
theorem absent_clock_does_not_converge :
    ¬∀ first second : List QuotaSnapshot, (∀ snapshot ∈ first, snapshot.Complete) → Agree first →
      (∀ snapshot, snapshot ∈ first ↔ snapshot ∈ second) →
        (publish first).updatedAtMs = (publish second).updatedAtMs := by
  intro converges
  have contradiction := converges [observedAt 1 (some 0), observedAt 1 none]
    [observedAt 1 none, observedAt 1 (some 0)] ?_ ⟨?_, ?_, ?_⟩ ?_
  · exact absurd contradiction (by decide)
  · intro snapshot member
    simp only [List.mem_cons, List.not_mem_nil, or_false] at member
    rcases member with rfl | rfl <;> exact ⟨nofun, nofun, nofun⟩
  · decide
  · decide
  · decide
  · intro snapshot
    simp only [List.mem_cons, List.not_mem_nil, or_false]
    tauto

end QuotaSnapshot

end ZenithRelay.Quota
