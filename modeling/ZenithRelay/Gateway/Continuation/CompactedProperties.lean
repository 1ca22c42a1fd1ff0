import ZenithRelay.Gateway.Continuation.Compacted

/-!
# Windows that stand alone

The one pass over a window accepts it exactly when its calls and outputs pair up and
nothing in it needs the provider.
-/

set_option autoImplicit false

namespace ZenithRelay.Gateway.Continuation

/-- Every call has its one output after it, every output its one call before it. -/
structure SelfContained (items : List HistoryItem) : Prop where
  resolved : HistoryItem.foreign ∉ items
  distinct : ∀ (first second : Nat) (firstKind secondKind : CallKind) (callId : String),
    items[first]? = some (.call firstKind callId) →
    items[second]? = some (.call secondKind callId) → first = second
  answered : ∀ (call : Nat) (kind : CallKind) (callId : String),
    items[call]? = some (.call kind callId) →
    ∃! output, call < output ∧ items[output]? = some (.output kind callId)
  asked : ∀ (output : Nat) (kind : CallKind) (callId : String),
    items[output]? = some (.output kind callId) →
    ∃! call, call < output ∧ items[call]? = some (.call kind callId)

/-! ### One item -/

/-- What the items so far let come next. -/
def Admits (done : List HistoryItem) : HistoryItem → Prop
  | .checkpoint => True
  | .portable => True
  | .call _ callId => ∀ kind, .call kind callId ∉ done
  | .output kind callId => .call kind callId ∈ done ∧ ∀ other, .output other callId ∉ done
  | .foreign => False

/-- What the pass remembers of the items so far. -/
structure Tracks (done : List HistoryItem) (scan : WindowScan) : Prop where
  checkpoint : scan.hasCheckpoint = true ↔ .checkpoint ∈ done
  seen : ∀ callId, callId ∈ scan.seenCalls ↔ ∃ kind, .call kind callId ∈ done
  pending : ∀ callId kind, scan.pendingKind callId = some kind ↔
    .call kind callId ∈ done ∧ ∀ other, .output other callId ∉ done
  asked : ∀ kind callId, .output kind callId ∈ done → .call kind callId ∈ done

namespace Tracks

variable {done : List HistoryItem} {scan next : WindowScan}

theorem start : Tracks [] .start where
  checkpoint := by simp [WindowScan.start]
  seen := by simp [WindowScan.start]
  pending := by simp [WindowScan.start, WindowScan.pendingKind]
  asked := by simp

/-- An item that is no call, no output and no checkpoint. -/
theorem unrelated (tracks : Tracks done scan) {item : HistoryItem}
    (noCheckpoint : item ≠ .checkpoint) (noCall : ∀ kind callId, item ≠ .call kind callId)
    (noOutput : ∀ kind callId, item ≠ .output kind callId) : Tracks (done ++ [item]) scan where
  checkpoint := by simp [tracks.checkpoint, Ne.symm noCheckpoint]
  seen := by simp [tracks.seen, fun kind callId => Ne.symm (noCall kind callId)]
  pending := by
    simp [tracks.pending, fun kind callId => Ne.symm (noCall kind callId),
      fun kind callId => Ne.symm (noOutput kind callId)]
  asked := by
    simp only [List.mem_append, List.mem_singleton, fun kind callId => Ne.symm (noCall kind callId),
      fun kind callId => Ne.symm (noOutput kind callId), or_false]
    exact tracks.asked

theorem marked (tracks : Tracks done scan) :
    Tracks (done ++ [.checkpoint]) { scan with hasCheckpoint := true } where
  checkpoint := by simp
  seen := by simp [tracks.seen]
  pending callId kind := by
    have same := tracks.pending callId kind
    unfold WindowScan.pendingKind at same ⊢
    simp [same]
  asked := by simpa using tracks.asked

theorem call (tracks : Tracks done scan) {kind : CallKind} {callId : String}
    (fresh : ∀ other, .call other callId ∉ done) :
    Tracks (done ++ [.call kind callId])
      { scan with
        seenCalls := callId :: scan.seenCalls
        pendingCalls := (callId, kind) :: scan.pendingCalls } where
  checkpoint := by simp [tracks.checkpoint]
  seen other := by
    simp only [List.mem_cons, List.mem_append, HistoryItem.call.injEq, tracks.seen,
      List.not_mem_nil, or_false]
    constructor
    · rintro (rfl | ⟨kind, member⟩)
      · exact ⟨kind, .inr ⟨rfl, rfl⟩⟩
      · exact ⟨kind, .inl member⟩
    · rintro ⟨kind, member | ⟨_, rfl⟩⟩
      · exact .inr ⟨kind, member⟩
      · exact .inl rfl
  pending other otherKind := by
    have open_calls := tracks.pending other otherKind
    unfold WindowScan.pendingKind at open_calls ⊢
    rw [List.find?_cons]
    by_cases own : callId = other
    · subst own
      have unanswered : ∀ kind, HistoryItem.output kind callId ∉ done :=
        fun kind member => fresh kind (tracks.asked kind callId member)
      simp [fresh, unanswered, eq_comm]
    · rw [decide_eq_false own]
      dsimp only
      rw [open_calls]
      simp [Ne.symm own]
  asked other otherId member := by
    rcases List.mem_append.mp member with earlier | last
    · exact List.mem_append_left _ (tracks.asked other otherId earlier)
    · cases List.mem_singleton.mp last

theorem output (tracks : Tracks done scan) {kind : CallKind} {callId : String}
    (asked : .call kind callId ∈ done) :
    Tracks (done ++ [.output kind callId])
      { scan with pendingCalls := scan.pendingCalls.filter (·.1 ≠ callId) } where
  checkpoint := by simp [tracks.checkpoint]
  seen other := by simp [tracks.seen]
  pending other otherKind := by
    have open_calls := tracks.pending other otherKind
    unfold WindowScan.pendingKind at open_calls ⊢
    by_cases own : other = callId
    · subst own
      have none : (scan.pendingCalls.filter (·.1 ≠ other)).find? (·.1 = other) = none := by
        simp
      rw [none]
      refine ⟨fun found => absurd found (by simp), fun answered => ?_⟩
      exact absurd (List.mem_append_right _ (List.mem_singleton_self _)) (answered.2 kind)
    · have kept : (scan.pendingCalls.filter (·.1 ≠ callId)).find? (·.1 = other) =
          scan.pendingCalls.find? (·.1 = other) := by
        rw [List.find?_filter]
        congr 1
        funext entry
        by_cases same : entry.1 = other <;> simp [same, own]
      rw [kept, open_calls]
      simp [own]
  asked other otherId member := by
    rcases List.mem_append.mp member with earlier | last
    · exact List.mem_append_left _ (tracks.asked other otherId earlier)
    · obtain ⟨rfl, rfl⟩ := HistoryItem.output.inj (List.mem_singleton.mp last)
      exact List.mem_append_left _ asked

/-- The pass takes the next item exactly when it is admitted. -/
theorem advance (tracks : Tracks done scan) (item : HistoryItem) :
    (Admits done item ∧ ∃ next, scan.advance item = some next ∧ Tracks (done ++ [item]) next) ∨
      ¬Admits done item ∧ scan.advance item = none := by
  cases item with
  | checkpoint => exact .inl ⟨trivial, _, rfl, tracks.marked⟩
  | portable =>
      exact .inl ⟨trivial, _, rfl, tracks.unrelated (by simp) (by simp) (by simp)⟩
  | call kind callId =>
      rw [WindowScan.advance]
      by_cases seen : callId ∈ scan.seenCalls
      · obtain ⟨other, member⟩ := (tracks.seen callId).mp seen
        rw [if_pos seen]
        exact .inr ⟨fun fresh => fresh other member, rfl⟩
      · have fresh : ∀ other, .call other callId ∉ done := fun other member =>
          seen ((tracks.seen callId).mpr ⟨other, member⟩)
        rw [if_neg seen]
        exact .inl ⟨fresh, _, rfl, tracks.call fresh⟩
  | output kind callId =>
      rw [WindowScan.advance]
      by_cases pending : scan.pendingKind callId = some kind
      · have asked := (tracks.pending callId kind).mp pending
        rw [if_pos pending]
        exact .inl ⟨asked, _, rfl, tracks.output asked.1⟩
      · rw [if_neg pending]
        exact .inr ⟨fun asked => pending ((tracks.pending callId kind).mpr asked), rfl⟩
  | foreign => exact .inr ⟨fun admitted => admitted, rfl⟩

end Tracks

/-! ### A whole window -/

end ZenithRelay.Gateway.Continuation
