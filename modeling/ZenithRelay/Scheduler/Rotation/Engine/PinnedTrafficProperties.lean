import ZenithRelay.Scheduler.Rotation.Engine.WeightedShareProperties

/-!
# Pinned traffic

What reservations pinned to their owner do to the unowned ones of the same route.
A pinned reservation drops the credit of every other member, so it leaves the
rotation alone only where there is none to drop.
-/

set_option autoImplicit false

namespace ZenithRelay.Scheduler.Rotation.RotationEngine

variable {engine : RotationEngine} {routeKey : String} {members : List RotationMember}

/-- Two runs among steady members choose alike for unowned requests, whatever clean
pins each of them has; and from empty credit no member misses a whole window. -/
theorem clean_pins_neutral (reachable : engine.Reachable)
    (weighted : engine.mode = .weightedRoundRobin) {left right : List EngineOperation}
    (leftAlong : Execution.Along apply (fun engine operation =>
      Steady routeKey members engine operation ∧ PinsCleanly routeKey engine operation)
      engine left)
    (rightAlong : Execution.Along apply (fun engine operation =>
      Steady routeKey members engine operation ∧ PinsCleanly routeKey engine operation)
      engine right)
    (length : (engine.unownedPicks routeKey left).length =
      (engine.unownedPicks routeKey right).length) :
    engine.unownedPicks routeKey left = engine.unownedPicks routeKey right ∧
      (engine.routeCredit routeKey = (fun _ => 0) →
        (RotationMember.totalWeight members : ℚ) * harmonic members.length ≤ i64Max →
        ∀ before window after : List String,
          engine.unownedPicks routeKey left = before ++ window ++ after →
          window.length = RotationMember.totalWeight members →
          ∀ member ∈ members, window.count member.id = member.weight) := by
  obtain ⟨-, leftPicks, leftShown, proper, leftRotates⟩ := run_rotates reachable weighted leftAlong
  obtain ⟨-, rightPicks, rightShown, -, rightRotates⟩ := run_rotates reachable weighted rightAlong
  rw [leftShown, rightShown, List.length_map, List.length_map] at length
  refine ⟨?_, fun fresh fits before window after split windowLength member known => ?_⟩
  · rw [leftShown, rightShown, (leftRotates.unique rightRotates length).1]
  · rw [fresh] at leftRotates
    exact leftRotates.window proper fits (leftShown ▸ split) windowLength known

def evenMembers : List RotationMember :=
  [⟨"a", "a", 0, 1⟩, ⟨"b", "b", 0, 1⟩, ⟨"c", "c", 0, 1⟩]

def evenEngine : RotationEngine :=
  RotationEngine.default.runOperations (.setMode .weightedRoundRobin ::
    evenMembers.map fun member => .upsert (.create member.id "r" "m"))

/-- A pin that finds no credit at all. -/
private theorem evenEngine_pin_clean :
    PinsCleanly "r" evenEngine (.reserve ((RotationRequest.create 1 "r" "m").withOwner "c") 0) := by
  intro _ owner runtime pinned stored
  have none : ∀ capacityKey, evenEngine.routeCredit "r" capacityKey = 0 := by
    intro capacityKey
    have empty : evenEngine.rotationCredit = ∅ := rfl
    simp [routeCredit, empty]
  cases pinned
  have weight : (evenEngine.candidates["c"]?.map (·.candidate.weight)) = some 1 := rfl
  rw [stored, Option.map_some, Option.some.injEq] at weight
  refine ⟨fun capacityKey _ => none capacityKey, ?_⟩
  rw [none, weight]
  decide

theorem clean_pins_neutral_first :
    evenEngine.unownedPicks "r"
        [.reserve ((RotationRequest.create 1 "r" "m").withOwner "c") 0, .reserve (.create 2 "r" "m") 0] =
      evenEngine.unownedPicks "r" [.reserve (.create 2 "r" "m") 0] := by
  refine (@clean_pins_neutral evenEngine "r" evenMembers ⟨_, rfl⟩ (by decide +kernel) _ _ ?_ ?_
    (by decide +kernel)).1
  · exact ⟨⟨by decide +kernel, evenEngine_pin_clean⟩, ⟨by decide +kernel, fun _ _ _ => nofun⟩, trivial⟩
  · exact ⟨⟨by decide +kernel, fun _ _ _ => nofun⟩, trivial⟩

/-- A pin to c between two unowned requests drops the credit of b, whose turn it is,
and c is chosen in its place. -/
theorem pin_skips_turn :
    ¬∀ (engine : RotationEngine) (routeKey : String) (members : List RotationMember)
      (left right : List EngineOperation), engine.Reachable →
      engine.mode = .weightedRoundRobin →
      Execution.Along apply (Steady routeKey members) engine left →
      Execution.Along apply (fun engine operation =>
        Steady routeKey members engine operation ∧ Unpinned routeKey operation) engine right →
      (engine.unownedPicks routeKey left).length = (engine.unownedPicks routeKey right).length →
      engine.unownedPicks routeKey left = engine.unownedPicks routeKey right := by
  intro neutral
  have same := neutral evenEngine "r" evenMembers
    [.reserve (.create 1 "r" "m") 0, .reserve ((RotationRequest.create 2 "r" "m").withOwner "c") 0,
      .reserve (.create 3 "r" "m") 0]
    [.reserve (.create 1 "r" "m") 0, .reserve (.create 3 "r" "m") 0]
    ⟨_, rfl⟩ (by decide +kernel) (by decide +kernel) (by decide +kernel) (by decide +kernel)
  revert same
  decide +kernel

end ZenithRelay.Scheduler.Rotation.RotationEngine
