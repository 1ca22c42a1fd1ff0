import ZenithRelay.Foundations.Execution
import ZenithRelay.Runtime.Admission

/-!
# The admission queue is bounded and principal-fair

The queue's tables agree in every reachable state, and while a capacity waiter
stays ready nobody bypasses the queue and no principal is served twice ahead of
the waiter's own.
-/

set_option autoImplicit false

namespace ZenithRelay.Runtime

open ZenithRelay.Scheduler.Rotation

namespace AdmissionQueue

/-- The waiters that `principal` owns. -/
def waitersOf (waiters : List Waiter) (principal : String) : List Waiter :=
  waiters.filter (·.request.keyId == principal)

def totalBytes (waiters : List Waiter) : Nat := (waiters.map (·.bytes)).sum

/-- The tables agree and stay within the limits. -/
structure Valid (queue : AdmissionQueue) : Prop where
  principals_distinct : queue.principals.Nodup
  principals_own : ∀ principal,
    principal ∈ queue.principals ↔ ∃ waiter ∈ queue.waiters, waiter.request.keyId = principal
  requests_distinct : (queue.waiters.map (·.request.requestId)).Nodup
  bytes_counted : ∀ waiter ∈ queue.waiters, waiter.bytes = waiter.request.retainedBytes
  retained_exact : queue.retainedBytes = totalBytes queue.waiters
  retained_bounded : queue.retainedBytes ≤ queue.limits.bytes
  principal_retained_bounded : ∀ principal,
    totalBytes (waitersOf queue.waiters principal) ≤ queue.limits.principalBytes
  requests_bounded : queue.waiters.length ≤ queue.limits.requests
  principal_requests_bounded : ∀ principal,
    (waitersOf queue.waiters principal).length ≤ queue.limits.principalRequests

@[simp] theorem totalBytes_append (first second : List Waiter) :
    totalBytes (first ++ second) = totalBytes first + totalBytes second := by
  simp [totalBytes]

@[simp] theorem totalBytes_cons (waiter : Waiter) (waiters : List Waiter) :
    totalBytes (waiter :: waiters) = waiter.bytes + totalBytes waiters := by
  simp [totalBytes]

@[simp] theorem totalBytes_nil : totalBytes [] = 0 := rfl

@[simp] theorem waitersOf_append (first second : List Waiter) (principal : String) :
    waitersOf (first ++ second) principal = waitersOf first principal ++ waitersOf second principal :=
  List.filter_append first second

theorem waitersOf_cons_own {waiter : Waiter} {principal : String}
    (own : waiter.request.keyId = principal) (waiters : List Waiter) :
    waitersOf (waiter :: waiters) principal = waiter :: waitersOf waiters principal :=
  List.filter_cons_of_pos (by simpa using own)

theorem waitersOf_cons_other {waiter : Waiter} {principal : String}
    (other : waiter.request.keyId ≠ principal) (waiters : List Waiter) :
    waitersOf (waiter :: waiters) principal = waitersOf waiters principal :=
  List.filter_cons_of_neg (by simpa using other)

private theorem totalBytes_le {fewer more : List Waiter} (sublist : fewer.Sublist more) :
    totalBytes fewer ≤ totalBytes more := by
  induction sublist with
  | slnil => exact le_rfl
  | cons waiter _ ih =>
    rw [totalBytes_cons]
    omega
  | cons_cons waiter _ ih =>
    rw [totalBytes_cons, totalBytes_cons]
    omega

private theorem empty_valid (limits : AdmissionLimits) : (empty limits).Valid where
  principals_distinct := List.nodup_nil
  principals_own := by simp [empty]
  requests_distinct := List.nodup_nil
  bytes_counted := by simp [empty]
  retained_exact := rfl
  retained_bounded := Nat.zero_le _
  principal_retained_bounded := fun _ => Nat.zero_le _
  requests_bounded := Nat.zero_le _
  principal_requests_bounded := fun _ => Nat.zero_le _

/-! ### Insertion -/

/-- The scan of the waiters from a partial share, with the sum unsaturated. -/
private theorem scan_share {request : AdmissionRequest} {waiters : List Waiter}
    {start share : Nat × Nat}
    (scanned : waiters.foldlM (fun (share : Nat × Nat) waiter =>
      if waiter.request.requestId = request.requestId then none
      else if waiter.request.keyId = request.keyId then
        some (share.1 + 1, saturatingAdd usizeMax share.2 waiter.bytes)
      else some share) start = some share)
    (fits : start.2 + totalBytes (waitersOf waiters request.keyId) ≤ usizeMax) :
    (∀ waiter ∈ waiters, waiter.request.requestId ≠ request.requestId) ∧
      share.1 = start.1 + (waitersOf waiters request.keyId).length ∧
        share.2 = start.2 + totalBytes (waitersOf waiters request.keyId) := by
  induction waiters generalizing start with
  | nil =>
    obtain rfl : start = share := by simpa using scanned
    exact ⟨fun _ member => absurd member List.not_mem_nil, rfl, rfl⟩
  | cons waiter waiters ih =>
    by_cases same : waiter.request.requestId = request.requestId
    · simp [List.foldlM_cons, same] at scanned
    · by_cases own : waiter.request.keyId = request.keyId
      · rw [waitersOf_cons_own own, totalBytes_cons] at fits
        have added : saturatingAdd usizeMax start.2 waiter.bytes = start.2 + waiter.bytes :=
          saturatingAdd_eq (by omega)
        rw [List.foldlM_cons, if_neg same, if_pos own, added] at scanned
        obtain ⟨fresh, count, bytes⟩ := ih scanned (by simp only; omega)
        rw [waitersOf_cons_own own, totalBytes_cons, List.length_cons]
        simp only at count bytes
        refine ⟨?_, by omega, by omega⟩
        rintro other (_ | ⟨_, member⟩)
        · exact same
        · exact fresh other member
      · rw [waitersOf_cons_other own] at fits
        rw [List.foldlM_cons, if_neg same, if_neg own] at scanned
        obtain ⟨fresh, count, bytes⟩ := ih scanned fits
        rw [waitersOf_cons_other own]
        refine ⟨?_, count, bytes⟩
        rintro other (_ | ⟨_, member⟩)
        · exact same
        · exact fresh other member

private theorem principalShare_spec {queue : AdmissionQueue} (valid : queue.Valid)
    {request : AdmissionRequest} {share : Nat × Nat}
    (scanned : principalShare queue.waiters request = some share) :
    (∀ waiter ∈ queue.waiters, waiter.request.requestId ≠ request.requestId) ∧
      share.1 = (waitersOf queue.waiters request.keyId).length ∧
        share.2 = totalBytes (waitersOf queue.waiters request.keyId) := by
  have fits : totalBytes (waitersOf queue.waiters request.keyId) ≤ usizeMax :=
    (valid.principal_retained_bounded request.keyId).trans queue.limits.principalBytes_fit
  have spec := scan_share scanned (by simpa using fits)
  simpa using spec

/-- What an accepted insertion does, its guards included. -/
structure Inserted (queue next : AdmissionQueue) (request : AdmissionRequest)
    (kind : RequestWaitKind) : Prop where
  fresh : ∀ waiter ∈ queue.waiters, waiter.request.requestId ≠ request.requestId
  room : queue.waiters.length < queue.limits.requests
  principal_room :
    (waitersOf queue.waiters request.keyId).length < queue.limits.principalRequests
  bytes_room : request.retainedBytes ≤ queue.limits.bytes - queue.retainedBytes
  principal_bytes_room : request.retainedBytes ≤
    queue.limits.principalBytes - totalBytes (waitersOf queue.waiters request.keyId)
  result : next =
    { queue with
      principals :=
        if request.keyId ∈ queue.principals then queue.principals
        else queue.principals ++ [request.keyId]
      retainedBytes := saturatingAdd usizeMax queue.retainedBytes request.retainedBytes
      waiters := queue.waiters ++ [⟨request, request.retainedBytes, kind = .capacity⟩] }

theorem insert_refused {queue : AdmissionQueue} {request : AdmissionRequest}
    {kind : RequestWaitKind} {beginsWait : Bool}
    (refused : (queue.insert request kind beginsWait).2 = false) :
    (queue.insert request kind beginsWait).1 = queue := by
  rw [insert] at refused ⊢
  split at refused
  next => rfl
  next =>
    split at refused
    next guard => rw [if_pos guard]
    next => cases refused

theorem insert_accepted {queue : AdmissionQueue} (valid : queue.Valid)
    {request : AdmissionRequest} {kind : RequestWaitKind} {beginsWait : Bool}
    (accepted : (queue.insert request kind beginsWait).2 = true) :
    Inserted queue (queue.insert request kind beginsWait).1 request kind := by
  rw [insert] at accepted ⊢
  cases scanned : principalShare queue.waiters request with
  | none => simp [scanned] at accepted
  | some share =>
    obtain ⟨fresh, count, bytes⟩ := principalShare_spec valid scanned
    simp only [scanned] at accepted ⊢
    split at accepted
    next => cases accepted
    next guard =>
      rw [if_neg guard]
      simp only [not_or, Nat.not_le, Nat.not_lt, count, bytes] at guard
      obtain ⟨room, principalRoom, bytesRoom, principalBytesRoom, -⟩ := guard
      exact ⟨fresh, room, principalRoom, bytesRoom, principalBytesRoom, rfl⟩

theorem Inserted.valid {queue next : AdmissionQueue} (before : queue.Valid)
    {request : AdmissionRequest} {kind : RequestWaitKind}
    (inserted : Inserted queue next request kind) : next.Valid := by
  obtain ⟨fresh, room, principalRoom, bytesRoom, principalBytesRoom, rfl⟩ := inserted
  have retainedBounded := before.retained_bounded
  have fits := queue.limits.bytes_fit
  have unsaturated : saturatingAdd usizeMax queue.retainedBytes request.retainedBytes =
      queue.retainedBytes + request.retainedBytes := saturatingAdd_eq (by omega)
  constructor
  · simp only
    split
    next => exact before.principals_distinct
    next absent =>
      refine List.nodup_append.mpr ⟨before.principals_distinct, by simp, ?_⟩
      rintro left present right (_ | ⟨_, ⟨⟩⟩) rfl
      exact absent present
  · intro principal
    simp only [List.mem_append, List.mem_singleton, or_and_right, exists_or, exists_eq_left]
    rw [← before.principals_own principal]
    split
    next present =>
      exact ⟨Or.inl, fun owner => owner.elim id fun own => own ▸ present⟩
    next => simp [eq_comm]
  · rw [List.map_append, List.nodup_append]
    refine ⟨before.requests_distinct, by simp, ?_⟩
    intro left old right new same
    obtain ⟨waiter, member, rfl⟩ := List.mem_map.mp old
    obtain rfl : request.requestId = right := by simpa [eq_comm] using new
    exact fresh waiter member same
  · intro waiter member
    rcases List.mem_append.mp member with old | new
    · exact before.bytes_counted waiter old
    · rw [List.mem_singleton.mp new]
  · rw [totalBytes_append, totalBytes_cons, totalBytes_nil, Nat.add_zero, ← before.retained_exact]
    exact unsaturated
  · simp only [unsaturated]
    omega
  · intro principal
    have old := before.principal_retained_bounded principal
    by_cases own : request.keyId = principal
    · subst own
      rw [waitersOf_append, waitersOf_cons_own rfl]
      simp only [totalBytes_append, totalBytes_cons, waitersOf, List.filter_nil, totalBytes_nil]
      rw [waitersOf] at principalBytesRoom old
      omega
    · rw [waitersOf_append, waitersOf_cons_other own]
      simpa [waitersOf] using old
  · simp only [List.length_append, List.length_singleton]
    omega
  · intro principal
    have old := before.principal_requests_bounded principal
    by_cases own : request.keyId = principal
    · subst own
      rw [waitersOf_append, waitersOf_cons_own rfl]
      simp only [List.length_append, List.length_cons, waitersOf, List.filter_nil, List.length_nil]
      rw [waitersOf] at principalRoom old
      omega
    · rw [waitersOf_append, waitersOf_cons_other own]
      simpa [waitersOf] using old

theorem insert_valid {queue : AdmissionQueue} (valid : queue.Valid) (request : AdmissionRequest)
    (kind : RequestWaitKind) (beginsWait : Bool) :
    (queue.insert request kind beginsWait).1.Valid := by
  cases accepted : (queue.insert request kind beginsWait).2 with
  | false =>
    rw [insert_refused accepted]
    exact valid
  | true => exact (insert_accepted valid accepted).valid valid

/-! ### Service and removal -/

@[simp] theorem served_waiters (queue : AdmissionQueue) (principal : String) :
    (queue.served principal).waiters = queue.waiters := by
  rw [served]
  split <;> rfl

theorem served_valid {queue : AdmissionQueue} (valid : queue.Valid) (principal : String) :
    (queue.served principal).Valid := by
  rw [served]
  split
  next present =>
    exact { valid with
      principals_distinct := TurnOrder.nodup_sendBack valid.principals_distinct principal
      principals_own := fun other =>
        (TurnOrder.mem_sendBack present).trans (valid.principals_own other) }
  next => exact valid

/-- The first waiter of a request stands between waiters that stay. -/
inductive Removed (queue : AdmissionQueue) (requestId : RequestId) : AdmissionQueue → Prop
  | absent (unknown : ∀ waiter ∈ queue.waiters, waiter.request.requestId ≠ requestId) :
      Removed queue requestId queue
  | removed (before : List Waiter) (waiter : Waiter) (after : List Waiter)
      (split : queue.waiters = before ++ waiter :: after)
      (own : waiter.request.requestId = requestId) :
      Removed queue requestId
        { queue with
          waiters := before ++ after
          retainedBytes := queue.retainedBytes - waiter.bytes
          principals :=
            if (before ++ after).any (·.request.keyId == waiter.request.keyId) then
              queue.principals
            else queue.principals.filter (· != waiter.request.keyId) }

theorem remove_cases (queue : AdmissionQueue) (requestId : RequestId) :
    Removed queue requestId (queue.remove requestId) := by
  rw [remove]
  cases found : queue.waiters.find? (·.request.requestId == requestId) with
  | none =>
    refine .absent fun waiter member same => ?_
    exact List.find?_eq_none.mp found waiter member (by simpa using same)
  | some waiter =>
    obtain ⟨own, before, after, split, others⟩ := List.find?_eq_some_iff_append.mp found
    have erased : queue.waiters.eraseP (·.request.requestId == requestId) = before ++ after := by
      rw [split, List.eraseP_append_right _ (fun other member => by simpa using others other member),
        List.eraseP_cons, own, cond_true]
    simp only [erased]
    exact .removed before waiter after split (by simpa using own)

private theorem remove_valid {queue : AdmissionQueue} (valid : queue.Valid) (requestId : RequestId) :
    (queue.remove requestId).Valid := by
  have outcome := remove_cases queue requestId
  generalize queue.remove requestId = next at outcome ⊢
  cases outcome with
  | absent => exact valid
  | removed before waiter after split own =>
    have stays {other : Waiter} (member : other ∈ before ++ after) : other ∈ queue.waiters := by
      rw [split]
      simp only [List.mem_append, List.mem_cons] at member ⊢
      tauto
    have sublist : (before ++ after).Sublist queue.waiters := by
      rw [split]
      exact (List.sublist_cons_self waiter after).append_left before
    have retained : queue.retainedBytes = waiter.bytes + totalBytes (before ++ after) := by
      rw [valid.retained_exact, split, totalBytes_append, totalBytes_cons, totalBytes_append]
      omega
    have shares (principal : String) : (waitersOf (before ++ after) principal).Sublist
        (waitersOf queue.waiters principal) := sublist.filter _
    have bounded := valid.retained_bounded
    constructor
    · simp only
      split
      next => exact valid.principals_distinct
      next => exact valid.principals_distinct.filter _
    · intro principal
      have owners := valid.principals_own principal
      rw [split] at owners
      simp only
      split
      next shared =>
        obtain ⟨other, member, same⟩ := List.any_eq_true.mp shared
        rw [owners]
        constructor
        · rintro ⟨owner, present, rfl⟩
          rcases List.mem_append.mp present with first | second
          · exact ⟨owner, List.mem_append_left _ first, rfl⟩
          · rcases List.mem_cons.mp second with rfl | later
            · exact ⟨other, member, by simpa using same⟩
            · exact ⟨owner, List.mem_append_right _ later, rfl⟩
        · rintro ⟨owner, present, rfl⟩
          exact ⟨owner, split ▸ stays present, rfl⟩
      next alone =>
        simp only [List.any_eq_true, not_exists, not_and, beq_iff_eq] at alone
        rw [List.mem_filter, owners]
        constructor
        · rintro ⟨⟨owner, present, rfl⟩, different⟩
          have distinct : owner.request.keyId ≠ waiter.request.keyId := by simpa using different
          refine ⟨owner, ?_, rfl⟩
          rcases List.mem_append.mp present with first | second
          · exact List.mem_append_left _ first
          · rcases List.mem_cons.mp second with rfl | later
            · exact absurd rfl distinct
            · exact List.mem_append_right _ later
        · rintro ⟨owner, present, rfl⟩
          exact ⟨⟨owner, split ▸ stays present, rfl⟩, by simpa using alone owner present⟩
    · exact valid.requests_distinct.sublist (sublist.map _)
    · exact fun other member => valid.bytes_counted other (stays member)
    · simp only [retained]
      omega
    · simp only
      omega
    · intro principal
      exact (totalBytes_le (shares principal)).trans (valid.principal_retained_bounded principal)
    · exact sublist.length_le.trans valid.requests_bounded
    · exact fun principal => (shares principal).length_le.trans
        (valid.principal_requests_bounded principal)

/-! ### Turns -/

/-- A scan of principals up to one that has a ready waiter stops there or before. -/
private theorem scan_turn {waiters : List Waiter} {ready : AdmissionRequest → Bool}
    {waiter : Waiter} (queued : waiter ∈ waiters) (selecting : waiter.selecting)
    (isReady : ready waiter.request) {principals : List String}
    (listed : waiter.request.keyId ∈ principals) :
    ∃ chosen ∈ waiters, chosen.selecting ∧ ready chosen.request ∧
      (principals.findSome? fun principal =>
        ((waiters.filter fun waiter =>
          waiter.selecting && waiter.request.keyId == principal).find?
            fun waiter => ready waiter.request).map (·.request.requestId)) =
        some chosen.request.requestId ∧
      (chosen.request.keyId = waiter.request.keyId ∨
        chosen.request.keyId ∈ TurnOrder.ahead principals waiter.request.keyId) := by
  induction principals with
  | nil => cases listed
  | cons first principals ih =>
    rw [List.findSome?_cons]
    cases found : (waiters.filter fun waiter =>
        waiter.selecting && waiter.request.keyId == first).find?
          fun waiter => ready waiter.request with
    | some chosen =>
      have member := List.mem_filter.mp (List.mem_of_find?_eq_some found)
      have chosenReady := List.find?_some found
      obtain ⟨queued, kind⟩ := member
      simp only [Bool.and_eq_true, beq_iff_eq] at kind
      refine ⟨chosen, queued, kind.1, chosenReady, rfl, ?_⟩
      by_cases same : first = waiter.request.keyId
      · exact Or.inl (kind.2.trans same)
      · rw [TurnOrder.ahead_cons_of_ne same]
        exact Or.inr (kind.2 ▸ List.mem_cons_self)
    | none =>
      have different : first ≠ waiter.request.keyId := by
        rintro rfl
        have member : waiter ∈ waiters.filter fun other =>
            other.selecting && other.request.keyId == waiter.request.keyId :=
          List.mem_filter.mpr ⟨queued, by simpa using selecting⟩
        exact List.find?_eq_none.mp found waiter member isReady
      have later : waiter.request.keyId ∈ principals := by
        simpa [Ne.symm different] using listed
      obtain ⟨chosen, member, kind, chosenReady, turn, place⟩ := ih later
      refine ⟨chosen, member, kind, chosenReady, turn, ?_⟩
      rw [TurnOrder.ahead_cons_of_ne different]
      exact place.imp_right (List.mem_cons_of_mem first)

/-- While a capacity waiter is ready the turn is a waiter's, and its principal
stands no later than the ready waiter's. -/
private theorem turn_of_ready {queue : AdmissionQueue} (valid : queue.Valid)
    {ready : AdmissionRequest → Bool} {waiter : Waiter} (queued : waiter ∈ queue.waiters)
    (selecting : waiter.selecting) (isReady : ready waiter.request) :
    ∃ chosen ∈ queue.waiters, queue.turn ready = some chosen.request.requestId ∧
      (chosen.request.keyId = waiter.request.keyId ∨
        chosen.request.keyId ∈ TurnOrder.ahead queue.principals waiter.request.keyId) := by
  have listed := (valid.principals_own _).mpr ⟨waiter, queued, rfl⟩
  obtain ⟨chosen, member, -, -, turn, place⟩ := scan_turn queued selecting isReady listed
  exact ⟨chosen, member, turn, place⟩

/-! ### Attempts -/

/-- What one attempt does to the queue, with the turn that let it reserve. -/
inductive Attempted (queue : AdmissionQueue) (request : AdmissionRequest)
    (answers : AttemptAnswers) : AdmissionQueue × AttemptOutcome → Prop
  | reserved
      (unsaturated : queue.saturatedBusy answers = none)
      (turn : (queue.turn answers.ready).all (· == request.requestId)) :
      Attempted queue request answers (queue.served request.keyId, .reserved)
  | unchanged (outcome : AttemptOutcome) (notReserved : outcome ≠ .reserved) :
      Attempted queue request answers (queue, outcome)
  | joined (outcome : AttemptOutcome) (notReserved : outcome ≠ .reserved) :
      Attempted queue request answers
        ((queue.insert request .capacity answers.beginsWait).1, outcome)

private theorem tryAdmission_reserved {queue : AdmissionQueue} {request : AdmissionRequest}
    {answers : AttemptAnswers} (reserved : (queue.tryAdmission request answers).1 = true) :
    queue.saturatedBusy answers = none ∧
      (queue.turn answers.ready).all (· == request.requestId) := by
  rw [tryAdmission] at reserved
  cases saturated : queue.saturatedBusy answers with
  | some busy => simp [saturated] at reserved
  | none =>
    refine ⟨rfl, ?_⟩
    simp only [saturated] at reserved
    split at reserved
    next turn => exact turn
    next => cases reserved

theorem admit_attempted (queue : AdmissionQueue) (request : AdmissionRequest)
    (registered : Bool) (answers : AttemptAnswers) :
    Attempted queue request answers (queue.admitRequest request registered answers) := by
  rw [admitRequest]
  cases attempt : queue.tryAdmission request answers with
  | mk reserved busy =>
    cases reserved with
    | true =>
      obtain ⟨unsaturated, turn⟩ := tryAdmission_reserved (congrArg Prod.fst attempt)
      exact .reserved unsaturated turn
    | false =>
      cases busy with
      | false => exact .unchanged .refused (by simp)
      | true =>
        cases registered with
        | true => exact .unchanged .waiting (by simp)
        | false =>
          refine .joined (if (queue.insert request .capacity answers.beginsWait).2 then .waiting
            else .refused) ?_
          cases (queue.insert request .capacity answers.beginsWait).2 <;> simp

private theorem admit_valid {queue : AdmissionQueue} (valid : queue.Valid) (request : AdmissionRequest)
    (registered : Bool) (answers : AttemptAnswers) :
    (queue.admitRequest request registered answers).1.Valid := by
  have outcome := admit_attempted queue request registered answers
  generalize queue.admitRequest request registered answers = result at outcome ⊢
  cases outcome with
  | reserved => exact served_valid valid request.keyId
  | unchanged => exact valid
  | joined => exact insert_valid valid request .capacity answers.beginsWait

end AdmissionQueue

open AdmissionQueue

namespace AdmissionStep

theorem apply_valid (queue : AdmissionQueue) (step : AdmissionStep) (valid : queue.Valid) :
    (apply queue step).Valid := by
  cases step with
  | insert request kind beginsWait => exact insert_valid valid request kind beginsWait
  | admitRequest request registered answers => exact admit_valid valid request registered answers
  | served principal => exact served_valid valid principal
  | remove requestId => exact remove_valid valid requestId

/-- The scheduler finds `request` a route whenever the step scans the waiters. -/
def findsReady (request : AdmissionRequest) : AdmissionStep → Prop
  | .admitRequest _ _ answers => answers.ready request = true
  | _ => True

/-- An attempting request is a newcomer or a waiter: a request id has one key. -/
def attributed (queue : AdmissionQueue) : AdmissionStep → Prop
  | .admitRequest request _ _ => ∀ waiter ∈ queue.waiters,
      waiter.request.requestId = request.requestId → waiter.request.keyId = request.keyId
  | _ => True

/-- The principal that the step sends to the back of the rotation. -/
def principalServed (queue : AdmissionQueue) : AdmissionStep → Option String
  | .served principal => some principal
  | step => (step.admitted queue).map (·.keyId)

/-- The waiter is queued and ready throughout the step. -/
structure StaysReady (waiter : Waiter) (queue : AdmissionQueue) (step : AdmissionStep) : Prop where
  queued : waiter ∈ queue.waiters
  remains : waiter ∈ (apply queue step).waiters
  ready : step.findsReady waiter.request
  attributed : step.attributed queue

instance decidableFindsReady (request : AdmissionRequest) :
    ∀ step : AdmissionStep, Decidable (step.findsReady request)
  | .admitRequest _ _ answers => inferInstanceAs (Decidable (answers.ready request = true))
  | .insert .. | .served _ | .remove _ => inferInstanceAs (Decidable True)

instance decidableAttributed (queue : AdmissionQueue) :
    ∀ step : AdmissionStep, Decidable (step.attributed queue)
  | .admitRequest request _ _ => inferInstanceAs (Decidable (∀ waiter ∈ queue.waiters,
      waiter.request.requestId = request.requestId → waiter.request.keyId = request.keyId))
  | .insert .. | .served _ | .remove _ => inferInstanceAs (Decidable True)

private theorem staysReady_iff {waiter : Waiter} {queue : AdmissionQueue} {step : AdmissionStep} :
    StaysReady waiter queue step ↔ waiter ∈ queue.waiters ∧
      waiter ∈ (apply queue step).waiters ∧ step.findsReady waiter.request ∧
        step.attributed queue :=
  ⟨fun stays => ⟨stays.queued, stays.remains, stays.ready, stays.attributed⟩,
    fun ⟨queued, remains, ready, attributed⟩ => ⟨queued, remains, ready, attributed⟩⟩

instance decidableStaysReady (waiter : Waiter) (queue : AdmissionQueue) (step : AdmissionStep) :
    Decidable (StaysReady waiter queue step) :=
  decidable_of_iff _ staysReady_iff.symm

theorem admitted_result {queue : AdmissionQueue} {step : AdmissionStep}
    {request : AdmissionRequest} (admitted : step.admitted queue = some request) :
    ∃ registered answers, step = .admitRequest request registered answers ∧
      (queue.admitRequest request registered answers).2 = .reserved := by
  cases step with
  | admitRequest attempting registered answers =>
    rw [AdmissionStep.admitted] at admitted
    split at admitted
    next reserved =>
      obtain rfl : attempting = request := by simpa using admitted
      exact ⟨registered, answers, rfl, reserved⟩
    next => cases admitted
  | insert => cases admitted
  | served => cases admitted
  | remove => cases admitted

/-- While a waiter stays ready, whoever is admitted holds a place in the queue,
its principal no later than the waiter's. -/
theorem admitted_is_queued {queue : AdmissionQueue} (valid : queue.Valid) {waiter : Waiter}
    (selecting : waiter.selecting) {step : AdmissionStep} (stays : StaysReady waiter queue step)
    {request : AdmissionRequest} (admitted : step.admitted queue = some request) :
    (∃ chosen ∈ queue.waiters, chosen.request.requestId = request.requestId) ∧
      apply queue step = queue.served request.keyId ∧
      (request.keyId = waiter.request.keyId ∨
        request.keyId ∈ TurnOrder.ahead queue.principals waiter.request.keyId) := by
  obtain ⟨registered, answers, rfl, reserved⟩ := admitted_result admitted
  obtain ⟨chosen, member, turn, place⟩ :=
    @turn_of_ready queue valid answers.ready waiter stays.queued selecting stays.ready
  have outcome := admit_attempted queue request registered answers
  have applied : apply queue (.admitRequest request registered answers) =
      (queue.admitRequest request registered answers).1 := rfl
  rw [applied]
  generalize queue.admitRequest request registered answers = result at outcome reserved ⊢
  cases outcome with
  | unchanged outcome notReserved => exact absurd reserved notReserved
  | joined outcome notReserved => exact absurd reserved notReserved
  | reserved unsaturated own =>
    have same : chosen.request.requestId = request.requestId := by simpa [turn] using own
    have key : chosen.request.keyId = request.keyId := stays.attributed chosen member same
    exact ⟨⟨chosen, member, same⟩, rfl, key ▸ place⟩

/-! ### Fairness -/

private theorem admitted_served {queue : AdmissionQueue} {step : AdmissionStep}
    {request : AdmissionRequest} (admitted : step.admitted queue = some request) :
    step.principalServed queue = some request.keyId := by
  obtain ⟨registered, answers, rfl, -⟩ := admitted_result admitted
  rw [principalServed, admitted]
  · rfl
  · exact fun _ same => by cases same

/-- A step that serves others and keeps the waiter queued puts no principal ahead
of the waiter's. -/
private theorem ahead_of_apply {queue : AdmissionQueue} (valid : queue.Valid) {waiter : Waiter}
    {step : AdmissionStep} (stays : StaysReady waiter queue step)
    (others : step.principalServed queue ≠ some waiter.request.keyId) {principal : String}
    (before : principal ∈ TurnOrder.ahead (apply queue step).principals waiter.request.keyId) :
    principal ∈ TurnOrder.ahead queue.principals waiter.request.keyId := by
  have listed := (valid.principals_own _).mpr ⟨waiter, stays.queued, rfl⟩
  have afterServed {other : String} (different : other ≠ waiter.request.keyId)
      (before : principal ∈
        TurnOrder.ahead (queue.served other).principals waiter.request.keyId) :
      principal ∈ TurnOrder.ahead queue.principals waiter.request.keyId := by
    rw [AdmissionQueue.served] at before
    split at before
    next =>
      rw [TurnOrder.ahead_sendBack listed different] at before
      exact List.mem_of_mem_erase before
    next => exact before
  have afterInsert {request : AdmissionRequest} {kind : RequestWaitKind} {beginsWait : Bool}
      (before : principal ∈ TurnOrder.ahead
        (queue.insert request kind beginsWait).1.principals waiter.request.keyId) :
      principal ∈ TurnOrder.ahead queue.principals waiter.request.keyId := by
    cases accepted : (queue.insert request kind beginsWait).2 with
    | false => rwa [insert_refused accepted] at before
    | true =>
      rw [(insert_accepted valid accepted).result] at before
      simp only at before
      split at before
      next => exact before
      next => rwa [TurnOrder.ahead_append listed] at before
  cases step with
  | insert request kind beginsWait => exact afterInsert before
  | served other => exact afterServed (fun same => others (same ▸ rfl)) before
  | admitRequest request registered answers =>
    have outcome := admit_attempted queue request registered answers
    have serves : (queue.admitRequest request registered answers).2 = .reserved →
        request.keyId ≠ waiter.request.keyId := by
      intro reserved same
      have served : AdmissionStep.admitted queue (.admitRequest request registered answers) =
          some request := by rw [admitted, if_pos reserved]
      exact others ((admitted_served served).trans (congrArg some same))
    change principal ∈
      TurnOrder.ahead (queue.admitRequest request registered answers).1.principals _ at before
    generalize queue.admitRequest request registered answers = result at outcome before serves
    cases outcome with
    | reserved => exact afterServed (serves rfl) before
    | unchanged => exact before
    | joined => exact afterInsert before
  | remove requestId =>
    have remains := stays.remains
    change waiter ∈ (queue.remove requestId).waiters at remains
    change principal ∈ TurnOrder.ahead (queue.remove requestId).principals _ at before
    have outcome := remove_cases queue requestId
    generalize queue.remove requestId = next at outcome before remains
    cases outcome with
    | absent => exact before
    | removed first removed last split own =>
      simp only at before remains
      split at before
      next => exact before
      next alone =>
        simp only [List.any_eq_true, not_exists, not_and, beq_iff_eq] at alone
        rw [TurnOrder.ahead_filter (by simpa using alone waiter remains)] at before
        exact (List.mem_filter.mp before).1

/-- An admission of another principal uses up its place ahead of the waiter. -/
private theorem admission_uses_place {queue : AdmissionQueue} (valid : queue.Valid) {waiter : Waiter}
    (selecting : waiter.selecting) {step : AdmissionStep} (stays : StaysReady waiter queue step)
    {principal : String} (different : principal ≠ waiter.request.keyId)
    (admitted : (step.admitted queue).map (·.keyId) = some principal) :
    principal ∈ TurnOrder.ahead queue.principals waiter.request.keyId ∧
      principal ∉ TurnOrder.ahead (apply queue step).principals waiter.request.keyId := by
  obtain ⟨request, request_admitted, rfl⟩ := Option.map_eq_some_iff.mp admitted
  obtain ⟨-, applied, place⟩ := admitted_is_queued valid selecting stays request_admitted
  have before := place.resolve_left different
  refine ⟨before, ?_⟩
  have listed := (valid.principals_own _).mpr ⟨waiter, stays.queued, rfl⟩
  rw [applied, AdmissionQueue.served, if_pos (TurnOrder.mem_of_mem_ahead before)]
  simp only
  rw [TurnOrder.ahead_sendBack listed different]
  have distinct : (TurnOrder.ahead queue.principals waiter.request.keyId).Nodup :=
    valid.principals_distinct.sublist (List.takeWhile_sublist _)
  exact fun again => (distinct.mem_erase_iff.mp again).1 rfl

end AdmissionStep

open Execution AdmissionStep

/-- The queue's tables agree and stay within the limits in every reachable state,
and a refused insertion changes nothing. While a capacity waiter stays ready,
every admitted request is a queued waiter's and, between admissions of the
waiter's principal, each other principal is admitted at most once. -/
theorem admission_bounded_and_fair (limits : AdmissionLimits) (events : List AdmissionStep) :
    (run AdmissionStep.apply (empty limits) events).Valid ∧
    (∀ request kind beginsWait,
      ((run AdmissionStep.apply (empty limits) events).insert request kind beginsWait).2 = false →
        ((run AdmissionStep.apply (empty limits) events).insert request kind beginsWait).1 =
          run AdmissionStep.apply (empty limits) events) ∧
    ∀ (waiter : Waiter) (waiting : List AdmissionStep), waiter.selecting = true →
      Along AdmissionStep.apply (StaysReady waiter)
        (run AdmissionStep.apply (empty limits) events) waiting →
      (∀ before step after request, waiting = before ++ step :: after →
        step.admitted (run AdmissionStep.apply (empty limits) (events ++ before)) = some request →
        ∃ queued ∈ (run AdmissionStep.apply (empty limits) (events ++ before)).waiters,
          queued.request.requestId = request.requestId) ∧
      ∀ before segment after principal, waiting = before ++ segment ++ after →
        principal ≠ waiter.request.keyId →
        Along AdmissionStep.apply
          (fun queue step => step.principalServed queue ≠ some waiter.request.keyId)
          (run AdmissionStep.apply (empty limits) (events ++ before)) segment →
        (trace AdmissionStep.apply (fun queue step => (step.admitted queue).map (·.keyId))
          (run AdmissionStep.apply (empty limits) (events ++ before)) segment).count principal ≤
            1 := by
  have reached (events : List AdmissionStep) :
      (run AdmissionStep.apply (empty limits) events).Valid :=
    run_invariant Valid apply_valid (empty_valid limits) events
  refine ⟨reached events, fun _ _ _ refused => insert_refused refused, ?_⟩
  intro waiter waiting selecting stays
  constructor
  · rintro before step after request rfl admitted
    have here := (along_append AdmissionStep.apply).mp stays |>.2.1
    rw [← run_append] at here
    exact (admitted_is_queued (reached _) selecting here admitted).1
  · rintro before segment after principal rfl different others
    rw [List.append_assoc] at stays
    have here := (along_append AdmissionStep.apply).mp stays |>.2
    have segmentStays := (along_append AdmissionStep.apply).mp here |>.1
    rw [← run_append] at segmentStays
    have valid := Along.of_invariant Valid apply_valid (reached (events ++ before)) segment
    refine (Along.trace_count_le_one AdmissionStep.apply
      (fun (queue : AdmissionQueue) => principal ∈ TurnOrder.ahead queue.principals waiter.request.keyId) ?_ ?_
      ((valid.and segmentStays).and others)).1
    · exact fun queue step allowed place => ahead_of_apply allowed.1.1 allowed.1.2 allowed.2 place
    · exact fun queue step allowed admitted =>
        admission_uses_place allowed.1.1 selecting allowed.1.2 different admitted

/-- A small request of one key. -/
def smallRequest (keyId : String) (requestId : RequestId) : AdmissionRequest :=
  ⟨keyId, requestId, 0, 0, [], none, none⟩

def everyRouteReady : AttemptAnswers := ⟨fun _ => true, false, false, true, (true, false), true⟩

def threePrincipals : List AdmissionStep :=
  [.insert (smallRequest "a" 1) .capacity true, .insert (smallRequest "b" 2) .capacity true,
    .insert (smallRequest "c" 3) .capacity true]

def admitTwo : List AdmissionStep :=
  [.admitRequest (smallRequest "a" 1) true everyRouteReady, .remove 1,
    .admitRequest (smallRequest "b" 2) true everyRouteReady]

theorem third_principal_waits :
    (trace AdmissionStep.apply (fun queue step => (step.admitted queue).map (·.keyId))
      (run AdmissionStep.apply (empty .standard) threePrincipals) admitTwo).count "b" ≤ 1 := by
  refine ((admission_bounded_and_fair .standard threePrincipals).2.2
    ⟨smallRequest "c" 3, 4096, true⟩ admitTwo rfl ?_).2 [] admitTwo [] "b" ?_ ?_ ?_
  · decide +kernel
  · rfl
  · decide +kernel
  · decide +kernel

/-- Three waiters of one principal, then two of another. -/
def twoPrincipals : List AdmissionStep :=
  [.insert (smallRequest "a" 1) .capacity true, .insert (smallRequest "a" 2) .capacity true,
    .insert (smallRequest "a" 3) .capacity true, .insert (smallRequest "b" 4) .capacity true,
    .insert (smallRequest "b" 5) .capacity true]

/-- The waiting principal is rotated without being admitted. -/
def rotateUnadmitted : List AdmissionStep :=
  [.admitRequest (smallRequest "a" 1) true everyRouteReady, .remove 1,
    .admitRequest (smallRequest "b" 4) true everyRouteReady, .remove 4, .served "a",
    .admitRequest (smallRequest "b" 5) true everyRouteReady, .remove 5,
    .admitRequest (smallRequest "a" 2) true everyRouteReady]

/-- A rotation outside an admission costs the ready waiter's principal its turn. -/
theorem unadmitted_rotation_serves_other_twice :
    Along AdmissionStep.apply (StaysReady ⟨smallRequest "a" 3, 4096, true⟩)
        (run AdmissionStep.apply (empty .standard) twoPrincipals) rotateUnadmitted ∧
      trace AdmissionStep.apply (fun queue step => (step.admitted queue).map (·.keyId))
        (run AdmissionStep.apply (empty .standard) twoPrincipals) rotateUnadmitted =
          ["a", "b", "b", "a"] := by
  constructor
  · decide +kernel
  · decide +kernel

end ZenithRelay.Runtime
