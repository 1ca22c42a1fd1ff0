import ZenithRelay.Foundations.CarriedIdentity
import ZenithRelay.Quota.Windows.Normalize

/-!
# Cycle fingerprints identify cycles

Along a run of normalized windows of one kind a full transition fires once for
each full cycle and an exhaustion transition once for each exhausted run, and no
two of them share a fingerprint.
-/

set_option autoImplicit false

namespace ZenithRelay.Quota

/-! ### Fingerprint texts -/

private theorem nul_not_digit (number : Nat) : '\x00' ∉ (toString number).toList := by
  change '\x00' ∉ number.repr.toList
  rw [Nat.toList_repr]
  intro member
  have digit := Nat.isDigit_of_mem_toDigits (by decide) (by decide) member
  simp at digit

private theorem toString_injective {first second : Nat}
    (same : (toString first).toList = (toString second).toList) : first = second := by
  change first.repr.toList = second.repr.toList at same
  rw [Nat.toList_repr, Nat.toList_repr] at same
  rw [← @Nat.ofDigitChars_ten_toDigits first, same, Nat.ofDigitChars_ten_toDigits]

/-- What follows the last separator of a text is determined. -/
private theorem last_segment {separator : Char} {first second left right : List Char}
    (leftFree : separator ∉ left) (rightFree : separator ∉ right)
    (same : first ++ separator :: left = second ++ separator :: right) : left = right := by
  have segment {front tail : List Char} (free : separator ∉ tail) :
      (front ++ separator :: tail).reverse.takeWhile (· != separator) = tail.reverse := by
    rw [List.reverse_append, List.reverse_cons, List.append_assoc, List.takeWhile_append_of_pos]
    · simp
    · intro character member
      have inside : character ∈ tail := List.mem_reverse.mp member
      simpa using fun equal : character = separator => free (equal ▸ inside)
  have reversed := (segment leftFree).symm.trans ((congrArg
    (fun text => text.reverse.takeWhile (· != separator)) same).trans (segment rightFree))
  exact List.reverse_injective reversed

/-- The identity text ends with the observation clock. -/
private theorem cycleIdentity_ends (kind : QuotaWindowKind) (resetAtMs windowMinutes : Option Nat)
    (providerCycleId : Option String) (observedAtMs : Nat) :
    ∃ front, (cycleIdentity kind resetAtMs windowMinutes providerCycleId observedAtMs).toList =
      front ++ '\x00' :: (toString observedAtMs).toList := by
  refine ⟨(kind.debug ++ "\x00" ++ toString (resetAtMs.getD 0) ++ "\x00" ++
    toString (windowMinutes.getD 0) ++ "\x00" ++ Text.trim (providerCycleId.getD "")).toList, ?_⟩
  have nul : "\x00".toList = ['\x00'] := rfl
  rw [cycleIdentity, String.toList_append, String.toList_append, nul, List.append_assoc,
    List.singleton_append]

theorem cycleIdentity_clock {kind other : QuotaWindowKind}
    {resetAtMs windowMinutes otherReset otherMinutes : Option Nat}
    {providerCycleId otherCycle : Option String} {observedAtMs otherObserved : Nat}
    (same : cycleIdentity kind resetAtMs windowMinutes providerCycleId observedAtMs =
      cycleIdentity other otherReset otherMinutes otherCycle otherObserved) :
    observedAtMs = otherObserved := by
  obtain ⟨front, text⟩ :=
    cycleIdentity_ends kind resetAtMs windowMinutes providerCycleId observedAtMs
  obtain ⟨otherFront, otherText⟩ :=
    cycleIdentity_ends other otherReset otherMinutes otherCycle otherObserved
  have texts := text.symm.trans ((congrArg String.toList same).trans otherText)
  exact toString_injective (last_segment (nul_not_digit _) (nul_not_digit _) texts)

/-- Full and exhausted cycles have different texts. -/
private theorem cycleIdentity_ne_exhausted (kind other : QuotaWindowKind)
    (resetAtMs windowMinutes otherReset otherMinutes : Option Nat)
    (providerCycleId otherCycle : Option String) (observedAtMs otherObserved : Nat) :
    cycleIdentity kind resetAtMs windowMinutes providerCycleId observedAtMs ≠
      "exhausted\x00" ++ cycleIdentity other otherReset otherMinutes otherCycle otherObserved := by
  intro same
  have starts := congrArg (fun text => text.toList.head?) same
  cases kind with
  | primary => simp [cycleIdentity, QuotaWindowKind.debug, String.toList_append] at starts
  | secondary => simp [cycleIdentity, QuotaWindowKind.debug, String.toList_append] at starts

variable {digest : String → String}

theorem cycleFingerprint_clock (injective : Function.Injective digest) {exhausted : Bool}
    {kind other : QuotaWindowKind} {resetAtMs windowMinutes otherReset otherMinutes : Option Nat}
    {providerCycleId otherCycle : Option String} {observedAtMs otherObserved : Nat}
    (same : cycleFingerprint digest exhausted kind resetAtMs windowMinutes providerCycleId
        observedAtMs =
      cycleFingerprint digest exhausted other otherReset otherMinutes otherCycle otherObserved) :
    observedAtMs = otherObserved := by
  have texts := injective same
  cases exhausted with
  | false => exact cycleIdentity_clock texts
  | true => exact cycleIdentity_clock ((String.append_right_inj "exhausted\x00").mp texts)

private theorem fullFingerprint_ne_exhaustion (injective : Function.Injective digest)
    (kind other : QuotaWindowKind) (resetAtMs windowMinutes otherReset otherMinutes : Option Nat)
    (providerCycleId otherCycle : Option String) (observedAtMs otherObserved : Nat) :
    cycleFingerprint digest false kind resetAtMs windowMinutes providerCycleId observedAtMs ≠
      cycleFingerprint digest true other otherReset otherMinutes otherCycle otherObserved :=
  fun same => cycleIdentity_ne_exhausted kind other resetAtMs windowMinutes otherReset otherMinutes
    providerCycleId otherCycle observedAtMs otherObserved (injective same)

/-! ### One step -/

namespace QuotaWindow

/-- The full fingerprint that an input starts. -/
def freshFull (digest : String → String) (input : QuotaWindowInput) : String :=
  cycleFingerprint digest false input.kind (input.reset.map (·.normalizeMs input.observedAtMs))
    input.windowMinutes input.providerCycleId input.observedAtMs

def freshExhaustion (digest : String → String) (input : QuotaWindowInput) : String :=
  cycleFingerprint digest true input.kind (input.reset.map (·.normalizeMs input.observedAtMs))
    input.windowMinutes input.providerCycleId input.observedAtMs

/-- The window carries the full cycle of the one before it. -/
def carriesFull (previous : QuotaWindow) (input : QuotaWindowInput) (window : QuotaWindow) : Bool :=
  window.isFullyAvailable && previous.isFullyAvailable &&
    !fullCycleChanged previous input window.resetAtMs

/-- What normalizing an input against a previous window yields. -/
structure Normalized (digest : String → String) (input : QuotaWindowInput)
    (previous : Option QuotaWindow) (window : QuotaWindow) : Prop where
  kind : window.kind = input.kind
  observed : window.observedAtMs = input.observedAtMs
  reset : window.resetAtMs = input.reset.map (·.normalizeMs input.observedAtMs)
  full : window.isFullyAvailable = true → window.fullTransitionFingerprint =
    some (fullFingerprint digest input previous window.resetAtMs)
  notFull : window.isFullyAvailable = false → window.fullTransitionFingerprint = none
  exhausted : window.isExhausted = true → window.exhaustionTransitionFingerprint =
    some (exhaustionFingerprint digest input previous window.resetAtMs)
  notExhausted : window.isExhausted = false → window.exhaustionTransitionFingerprint = none

private theorem normalize_ok {input : QuotaWindowInput} {previous : Option QuotaWindow}
    {window : QuotaWindow} (accepted : normalize digest input previous = .ok window) :
    Normalized digest input previous window := by
  rw [normalize] at accepted
  cases percent : input.availablePercent.mapM percentToBasisPoints with
  | error error => simp [percent, bind, Except.bind] at accepted
  | ok available =>
    simp only [percent, bind, Except.bind, pure, Except.pure, Except.ok.injEq] at accepted
    subst accepted
    refine ⟨rfl, rfl, rfl, fun full => ?_, fun notFull => ?_, fun exhausted => ?_,
      fun notExhausted => ?_⟩
    · exact if_pos full
    · exact if_neg (by simpa [isFullyAvailable] using notFull)
    · exact if_pos exhausted
    · exact if_neg (by simpa [isExhausted] using notExhausted)

private theorem Normalized.carried_full {input : QuotaWindowInput} {previous window : QuotaWindow}
    (normalized : Normalized digest input (some previous) window)
    (carries : carriesFull previous input window = true)
    (dated : previous.fullTransitionFingerprint ≠ none) :
    window.fullTransitionFingerprint = previous.fullTransitionFingerprint := by
  simp only [carriesFull, Bool.and_eq_true, Bool.not_eq_true'] at carries
  obtain ⟨⟨full, previousFull⟩, same⟩ := carries
  obtain ⟨fingerprint, carried⟩ := Option.ne_none_iff_exists'.mp dated
  rw [normalized.full full, fullFingerprint]
  simp [Option.filter, previousFull, same, carried]

private theorem Normalized.fresh_full {input : QuotaWindowInput} {previous : Option QuotaWindow}
    {window : QuotaWindow} (normalized : Normalized digest input previous window)
    (full : window.isFullyAvailable = true)
    (starts : ∀ before ∈ previous, carriesFull before input window = false) :
    window.fullTransitionFingerprint = some (freshFull digest input) := by
  have dropped : (previous.filter fun before =>
      before.isFullyAvailable && !fullCycleChanged before input window.resetAtMs) = none := by
    rw [Option.filter_eq_none_iff]
    intro before present
    have new := starts before present
    rw [carriesFull, full, Bool.true_and] at new
    simp [new]
  rw [normalized.full full, fullFingerprint, dropped, freshFull, normalized.reset]
  rfl

private theorem Normalized.carried_exhaustion {input : QuotaWindowInput} {previous window : QuotaWindow}
    (normalized : Normalized digest input (some previous) window)
    (exhausted : window.isExhausted = true) (before : previous.isExhausted = true)
    (dated : previous.exhaustionTransitionFingerprint ≠ none) :
    window.exhaustionTransitionFingerprint = previous.exhaustionTransitionFingerprint := by
  obtain ⟨fingerprint, carried⟩ := Option.ne_none_iff_exists'.mp dated
  rw [normalized.exhausted exhausted, exhaustionFingerprint]
  simp [Option.filter, before, carried]

private theorem Normalized.fresh_exhaustion {input : QuotaWindowInput} {previous : Option QuotaWindow}
    {window : QuotaWindow} (normalized : Normalized digest input previous window)
    (exhausted : window.isExhausted = true)
    (starts : ∀ before ∈ previous, before.isExhausted = false) :
    window.exhaustionTransitionFingerprint = some (freshExhaustion digest input) := by
  have dropped : previous.filter (·.isExhausted) = none := by
    rw [Option.filter_eq_none_iff]
    intro before present
    simp [starts before present]
  rw [normalized.exhausted exhausted, exhaustionFingerprint, dropped, freshExhaustion,
    normalized.reset]
  rfl

/-! ### Runs -/

/-- The window before position `position`. -/
def previousAt (before : Option QuotaWindow) (windows : List QuotaWindow) : Nat → Option QuotaWindow
  | 0 => before
  | position + 1 => windows[position]?

private theorem normalizeAll_ok {inputs : List QuotaWindowInput} {previous : Option QuotaWindow}
    {windows : List QuotaWindow} (accepted : normalizeAll digest previous inputs = .ok windows)
    {position : Nat} {window : QuotaWindow} (present : windows[position]? = some window) :
    ∃ input, inputs[position]? = some input ∧
      Normalized digest input (previousAt previous windows position) window := by
  induction inputs generalizing previous windows position with
  | nil =>
    obtain rfl : [] = windows := by simpa [normalizeAll, pure, Except.pure] using accepted
    cases present
  | cons input inputs ih =>
    rw [normalizeAll] at accepted
    cases first : normalize digest input previous with
    | error error => simp [first, bind, Except.bind] at accepted
    | ok head =>
      cases rest : normalizeAll digest (some head) inputs with
      | error error => simp [first, rest, bind, Except.bind] at accepted
      | ok tail =>
        obtain rfl : head :: tail = windows := by
          simpa [first, rest, bind, Except.bind, pure, Except.pure] using accepted
        cases position with
        | zero =>
          obtain rfl : head = window := by simpa using present
          exact ⟨input, rfl, normalize_ok first⟩
        | succ position =>
          obtain ⟨own, found, normalized⟩ := ih rest (by simpa using present)
          refine ⟨own, by simpa using found, ?_⟩
          cases position with
          | zero => exact normalized
          | succ position => exact normalized

/-- A run of inputs of one kind with increasing clocks, and its windows. -/
structure QuotaRun (digest : String → String) (kind : QuotaWindowKind)
    (inputs : List QuotaWindowInput) (windows : List QuotaWindow) : Prop where
  normalized : normalizeAll digest none inputs = .ok windows
  kinds : ∀ input ∈ inputs, input.kind = kind
  increasing : inputs.Pairwise fun earlier later => earlier.observedAtMs < later.observedAtMs

section Run

variable {kind : QuotaWindowKind} {inputs : List QuotaWindowInput} {windows : List QuotaWindow}

theorem QuotaRun.step (run : QuotaRun digest kind inputs windows) {position : Nat}
    {window : QuotaWindow} (present : windows[position]? = some window) :
    ∃ input, inputs[position]? = some input ∧
      Normalized digest input (previousAt none windows position) window :=
  normalizeAll_ok run.normalized present

theorem QuotaRun.kind_eq (run : QuotaRun digest kind inputs windows) {position : Nat}
    {window : QuotaWindow} (present : windows[position]? = some window) : window.kind = kind := by
  obtain ⟨input, found, normalized⟩ := run.step present
  rw [normalized.kind]
  exact run.kinds input (List.mem_of_getElem? found)

/-- Inputs with one clock are one input. -/
theorem QuotaRun.position_eq (run : QuotaRun digest kind inputs windows) {first second : Nat}
    {left right : QuotaWindowInput} (atFirst : inputs[first]? = some left)
    (atSecond : inputs[second]? = some right) (clocks : left.observedAtMs = right.observedAtMs) :
    first = second := by
  obtain ⟨firstBound, rfl⟩ := List.getElem?_eq_some_iff.mp atFirst
  obtain ⟨secondBound, rfl⟩ := List.getElem?_eq_some_iff.mp atSecond
  have increasing := List.pairwise_iff_getElem.mp run.increasing
  rcases Nat.lt_trichotomy first second with before | same | after
  · have grows := increasing first second firstBound secondBound before
    omega
  · exact same
  · have grows := increasing second first secondBound firstBound after
    omega

def fullAt (windows : List QuotaWindow) (position : Nat) : Prop :=
  ∃ window, windows[position]? = some window ∧ window.isFullyAvailable = true

def exhaustedAt (windows : List QuotaWindow) (position : Nat) : Prop :=
  ∃ window, windows[position]? = some window ∧ window.isExhausted = true

def carriesFullAt (inputs : List QuotaWindowInput) (windows : List QuotaWindow) : Nat → Prop
  | 0 => False
  | position + 1 => ∃ previous input window, windows[position]? = some previous ∧
      inputs[position + 1]? = some input ∧ windows[position + 1]? = some window ∧
      carriesFull previous input window = true

def carriesExhaustionAt (windows : List QuotaWindow) : Nat → Prop
  | 0 => False
  | position + 1 => exhaustedAt windows position ∧ exhaustedAt windows (position + 1)

def fullFingerprintAt (windows : List QuotaWindow) (position : Nat) : Option String :=
  windows[position]?.bind (·.fullTransitionFingerprint)

def exhaustionFingerprintAt (windows : List QuotaWindow) (position : Nat) : Option String :=
  windows[position]?.bind (·.exhaustionTransitionFingerprint)

theorem QuotaRun.full_carried (injective : Function.Injective digest)
    (run : QuotaRun digest kind inputs windows) :
    CarriedIdentity (fullAt windows) (carriesFullAt inputs windows) (fullFingerprintAt windows)
      fun position => inputs[position]?.map (freshFull digest) where
  first := id
  active_of_carries := by
    rintro position ⟨previous, input, window, before, -, present, carries⟩
    simp only [carriesFull, Bool.and_eq_true] at carries
    exact ⟨⟨window, present, carries.1.1⟩, ⟨previous, before, carries.1.2⟩⟩
  kept := by
    rintro position ⟨previous, input, window, before, found, present, carries⟩
    obtain ⟨own, same, normalized⟩ := run.step present
    cases found.symm.trans same
    rw [previousAt, before] at normalized
    obtain ⟨earlier, -, normalizedBefore⟩ := run.step before
    have previousFull : previous.isFullyAvailable = true := by
      simp only [carriesFull, Bool.and_eq_true] at carries
      exact carries.1.2
    rw [fullFingerprintAt, fullFingerprintAt, present, before]
    exact normalized.carried_full carries (by rw [normalizedBefore.full previousFull]; simp)
  minted := by
    rintro position ⟨window, present, full⟩ fresh
    obtain ⟨input, found, normalized⟩ := run.step present
    rw [fullFingerprintAt, present, found]
    refine normalized.fresh_full full fun before previous => ?_
    cases position with
    | zero => cases previous
    | succ position =>
      rw [Bool.eq_false_iff]
      exact fun carries => fresh ⟨before, input, window, previous, found, present, carries⟩
  distinct := by
    rintro first second ⟨left, atFirst, -⟩ ⟨right, atSecond, -⟩ same
    obtain ⟨leftInput, leftFound, -⟩ := run.step atFirst
    obtain ⟨rightInput, rightFound, -⟩ := run.step atSecond
    rw [leftFound, rightFound, Option.map_some, Option.map_some, Option.some.injEq] at same
    exact run.position_eq leftFound rightFound (cycleFingerprint_clock injective same)

private theorem QuotaRun.exhaustion_carried (injective : Function.Injective digest)
    (run : QuotaRun digest kind inputs windows) :
    CarriedIdentity (exhaustedAt windows) (carriesExhaustionAt windows)
      (exhaustionFingerprintAt windows)
      fun position => inputs[position]?.map (freshExhaustion digest) where
  first := id
  active_of_carries := fun _ carries => ⟨carries.2, carries.1⟩
  kept := by
    rintro position ⟨⟨previous, before, previousExhausted⟩, ⟨window, present, exhausted⟩⟩
    obtain ⟨input, -, normalized⟩ := run.step present
    rw [previousAt, before] at normalized
    obtain ⟨earlier, -, normalizedBefore⟩ := run.step before
    rw [exhaustionFingerprintAt, exhaustionFingerprintAt, present, before]
    exact normalized.carried_exhaustion exhausted previousExhausted
      (by rw [normalizedBefore.exhausted previousExhausted]; simp)
  minted := by
    rintro position ⟨window, present, exhausted⟩ fresh
    obtain ⟨input, found, normalized⟩ := run.step present
    rw [exhaustionFingerprintAt, present, found]
    refine normalized.fresh_exhaustion exhausted fun before previous => ?_
    cases position with
    | zero => cases previous
    | succ position =>
      rw [Bool.eq_false_iff]
      exact fun was => fresh ⟨⟨before, previous, was⟩, ⟨window, present, exhausted⟩⟩
  distinct := by
    rintro first second ⟨left, atFirst, -⟩ ⟨right, atSecond, -⟩ same
    obtain ⟨leftInput, leftFound, -⟩ := run.step atFirst
    obtain ⟨rightInput, rightFound, -⟩ := run.step atSecond
    rw [leftFound, rightFound, Option.map_some, Option.map_some, Option.some.injEq] at same
    exact run.position_eq leftFound rightFound (cycleFingerprint_clock injective same)

/-! ### Transitions -/

/-- The full transition that the window at `position` reports against the one
before it. -/
def fullTransitionAt (digest : String → String) (windows : List QuotaWindow) (position : Nat) :
    Option QuotaTransition :=
  windows[position]?.bind fun window =>
    window.fullTransitionFrom digest (previousAt none windows position)

def exhaustionTransitionAt (digest : String → String) (windows : List QuotaWindow)
    (position : Nat) : Option QuotaTransition :=
  windows[position]?.bind fun window =>
    window.exhaustionTransitionFrom digest (previousAt none windows position)

theorem QuotaRun.fullFingerprint_isSome (run : QuotaRun digest kind inputs windows)
    {position : Nat} {window : QuotaWindow} (present : windows[position]? = some window)
    (full : window.isFullyAvailable = true) :
    ∃ fingerprint, window.fullTransitionFingerprint = some fingerprint := by
  obtain ⟨input, -, normalized⟩ := run.step present
  exact ⟨_, normalized.full full⟩

/-- Two successive full windows share their fingerprint unless the cycle changed. -/
private theorem QuotaRun.fingerprint_changes_iff (injective : Function.Injective digest)
    (run : QuotaRun digest kind inputs windows) {position : Nat} {previous window : QuotaWindow}
    {input : QuotaWindowInput} (before : windows[position]? = some previous)
    (present : windows[position + 1]? = some window) (found : inputs[position + 1]? = some input)
    (previousFull : previous.isFullyAvailable = true) (full : window.isFullyAvailable = true) :
    window.fullTransitionFingerprint ≠ previous.fullTransitionFingerprint ↔
      fullCycleChanged previous input window.resetAtMs = true := by
  have carried := run.full_carried injective
  have same : fullFingerprintAt windows (position + 1) = window.fullTransitionFingerprint := by
    rw [fullFingerprintAt, present]
    rfl
  have earlier : fullFingerprintAt windows position = previous.fullTransitionFingerprint := by
    rw [fullFingerprintAt, before]
    rfl
  rw [← same, ← earlier]
  constructor
  · intro differs
    by_contra unchanged
    refine differs (carried.kept position ⟨previous, input, window, before, found, present, ?_⟩)
    simpa [carriesFull, full, previousFull] using unchanged
  · intro changed
    refine (carried.ne_of_break ⟨previous, before, previousFull⟩ ⟨window, present, full⟩
      (Nat.lt_succ_self position) le_rfl ?_).symm
    rintro ⟨own, ownInput, ownWindow, ownBefore, ownFound, ownPresent, carries⟩
    cases before.symm.trans ownBefore
    cases found.symm.trans ownFound
    cases present.symm.trans ownPresent
    simp [carriesFull, changed] at carries

/-- A full transition fires exactly when a full cycle starts. -/
theorem QuotaRun.fullTransition_iff (injective : Function.Injective digest)
    (run : QuotaRun digest kind inputs windows) {position : Nat} {previous window : QuotaWindow}
    {input : QuotaWindowInput} (before : windows[position]? = some previous)
    (present : windows[position + 1]? = some window)
    (found : inputs[position + 1]? = some input) :
    (fullTransitionAt digest windows (position + 1)).isSome ↔
      window.isFullyAvailable = true ∧
        (previous.isFullyAvailable = false ∨
          fullCycleChanged previous input window.resetAtMs = true) := by
  have kinds : previous.kind = window.kind := (run.kind_eq before).trans (run.kind_eq present).symm
  rw [fullTransitionAt, present, Option.bind_some, previousAt, before, fullTransitionFrom,
    Option.bind_some]
  cases full : window.isFullyAvailable with
  | false => simp
  | true =>
    cases previousFull : previous.isFullyAvailable with
    | false => simp [kinds]
    | true =>
      obtain ⟨current, own⟩ := run.fullFingerprint_isSome present full
      obtain ⟨last, earlier⟩ := run.fullFingerprint_isSome before previousFull
      have changes := run.fingerprint_changes_iff injective before present found previousFull full
      rw [own, earlier] at changes
      simp only [own, earlier, kinds]
      rw [← changes]
      simp

/-- A firing carries the fingerprint of its window, which no earlier step has. -/
theorem QuotaRun.fullTransition_fires (injective : Function.Injective digest)
    (run : QuotaRun digest kind inputs windows) {position : Nat} {transition : QuotaTransition}
    (fires : fullTransitionAt digest windows position = some transition) :
    fullAt windows position ∧ ¬carriesFullAt inputs windows position ∧
      fullFingerprintAt windows position = some transition.fingerprint := by
  cases position with
  | zero => cases present : windows[0]? <;> simp [fullTransitionAt, present, previousAt,
      fullTransitionFrom] at fires
  | succ position =>
    have isSome : (fullTransitionAt digest windows (position + 1)).isSome := by simp [fires]
    cases present : windows[position + 1]? with
    | none => simp [fullTransitionAt, present] at fires
    | some window =>
      obtain ⟨input, found, -⟩ := run.step present
      obtain ⟨bound, -⟩ := List.getElem?_eq_some_iff.mp present
      have before : windows[position]? = some windows[position] :=
        List.getElem?_eq_getElem (by omega)
      obtain ⟨full, starts⟩ :=
        (run.fullTransition_iff injective before present found).mp isSome
      obtain ⟨fingerprint, own⟩ := run.fullFingerprint_isSome present full
      refine ⟨⟨window, present, full⟩, ?_, ?_⟩
      · rintro ⟨previous, ownInput, ownWindow, ownBefore, ownFound, ownPresent, carries⟩
        cases before.symm.trans ownBefore
        cases found.symm.trans ownFound
        cases present.symm.trans ownPresent
        simp only [carriesFull, Bool.and_eq_true, Bool.not_eq_true'] at carries
        rcases starts with notFull | changed
        · simp [notFull] at carries
        · simp [changed] at carries
      · rw [fullTransitionAt, present, Option.bind_some, previousAt, before, fullTransitionFrom,
          Option.bind_some] at fires
        rw [fullFingerprintAt, present, Option.bind_some, own]
        obtain ⟨-, reported⟩ := Option.ite_none_right_eq_some.mp fires
        cases reported
        simp [own]

/-- A full step that does not fire carries the full cycle of the step before it. -/
private theorem QuotaRun.carries_of_silent (injective : Function.Injective digest)
    (run : QuotaRun digest kind inputs windows) {position : Nat}
    (full : fullAt windows (position + 1))
    (silent : fullTransitionAt digest windows (position + 1) = none) :
    carriesFullAt inputs windows (position + 1) := by
  obtain ⟨window, present, isFull⟩ := full
  obtain ⟨input, found, -⟩ := run.step present
  obtain ⟨bound, -⟩ := List.getElem?_eq_some_iff.mp present
  have before : windows[position]? = some windows[position] := List.getElem?_eq_getElem (by omega)
  refine ⟨_, input, window, before, found, present, ?_⟩
  have quiet := mt (run.fullTransition_iff injective before present found).mpr (by simp [silent])
  simp only [isFull, true_and, not_or, Bool.not_eq_false, Bool.not_eq_true] at quiet
  simp [carriesFull, isFull, quiet.1, quiet.2]

private theorem QuotaRun.unbroken_of_silent (injective : Function.Injective digest)
    (run : QuotaRun digest kind inputs windows) {first last : Nat}
    (full : fullAt windows last)
    (silent : ∀ step, first < step → step ≤ last → fullTransitionAt digest windows step = none) :
    CarriedIdentity.Unbroken (carriesFullAt inputs windows) first last := by
  induction last with
  | zero => exact fun step after upTo => by omega
  | succ last ih =>
    intro step after upTo
    have carries := run.carries_of_silent injective full (silent (last + 1) (by omega) le_rfl)
    by_cases same : step = last + 1
    · exact same ▸ carries
    · refine ih ?_ (fun earlier above below => silent earlier above (by omega)) step after (by omega)
      exact ((run.full_carried injective).active_of_carries last carries).2

/-- An exhaustion transition fires exactly at an edge to exhaustion, with the
stable identity of the window. -/
private theorem QuotaRun.exhaustionTransition_eq (run : QuotaRun digest kind inputs windows)
    {position : Nat} {previous window : QuotaWindow} (before : windows[position]? = some previous)
    (present : windows[position + 1]? = some window) :
    exhaustionTransitionAt digest windows (position + 1) =
      if previous.isExhausted = false ∧ window.isExhausted = true then
        window.exhaustionTransition digest
      else none := by
  have kinds : previous.kind = window.kind := (run.kind_eq before).trans (run.kind_eq present).symm
  rw [exhaustionTransitionAt, present, Option.bind_some, previousAt, before,
    exhaustionTransitionFrom, Option.bind_some, exhaustionTransition]
  cases window.isExhausted <;> cases previous.isExhausted <;> simp [kinds]

private theorem QuotaRun.exhaustionTransition_fingerprint (run : QuotaRun digest kind inputs windows)
    {position : Nat} {window : QuotaWindow} (present : windows[position]? = some window)
    (exhausted : window.isExhausted = true) :
    (window.exhaustionTransition digest).map (·.fingerprint) =
      exhaustionFingerprintAt windows position := by
  obtain ⟨input, -, normalized⟩ := run.step present
  rw [exhaustionFingerprintAt, present, Option.bind_some, normalized.exhausted exhausted,
    exhaustionTransition, if_pos exhausted, normalized.exhausted exhausted]
  rfl

end Run

/-- Along every run of normalized windows of one kind, full transitions fire just
where a full cycle starts and exhaustion transitions at the edges to exhaustion;
a fingerprint stays through its cycle and no two cycles share one. -/
theorem fingerprints_identify_cycles {digest : String → String}
    (injective : Function.Injective digest) {kind : QuotaWindowKind}
    {inputs : List QuotaWindowInput} {windows : List QuotaWindow}
    (run : QuotaRun digest kind inputs windows) :
    (∀ position previous window input, windows[position]? = some previous →
      windows[position + 1]? = some window → inputs[position + 1]? = some input →
      ((fullTransitionAt digest windows (position + 1)).isSome ↔
        window.isFullyAvailable = true ∧ (previous.isFullyAvailable = false ∨
          fullCycleChanged previous input window.resetAtMs = true))) ∧
    (∀ first last, first ≤ last → fullAt windows first → fullAt windows last →
      (∀ step, first < step → step ≤ last → fullTransitionAt digest windows step = none) →
      fullFingerprintAt windows first = fullFingerprintAt windows last) ∧
    (∀ first second one other, first ≠ second →
      fullTransitionAt digest windows first = some one →
      fullTransitionAt digest windows second = some other → one.fingerprint ≠ other.fingerprint) ∧
    (∀ position previous window, windows[position]? = some previous →
      windows[position + 1]? = some window →
      exhaustionTransitionAt digest windows (position + 1) =
        if previous.isExhausted = false ∧ window.isExhausted = true then
          window.exhaustionTransition digest
        else none) ∧
    (∀ first last, (∀ step, first ≤ step → step ≤ last → exhaustedAt windows step) →
      ∀ step, first ≤ step → step ≤ last → ∀ window, windows[step]? = some window →
        (window.exhaustionTransition digest).map (·.fingerprint) =
          exhaustionFingerprintAt windows first) ∧
    (∀ first middle last, first < middle → middle < last → exhaustedAt windows first →
      ¬exhaustedAt windows middle → exhaustedAt windows last →
      exhaustionFingerprintAt windows first ≠ exhaustionFingerprintAt windows last) ∧
    ∀ first second, fullAt windows first → exhaustedAt windows second →
      fullFingerprintAt windows first ≠ exhaustionFingerprintAt windows second := by
  have full := run.full_carried injective
  have exhaustion := run.exhaustion_carried injective
  refine ⟨?_, ?_, ?_, ?_, ?_, ?_, ?_⟩
  · exact fun position previous window input before present found =>
      run.fullTransition_iff injective before present found
  · intro first last order _ lastFull silent
    exact (full.eq_of_unbroken order (run.unbroken_of_silent injective lastFull silent)).symm
  · intro first second one other different oneFires otherFires same
    obtain ⟨oneFull, oneStarts, oneIs⟩ := run.fullTransition_fires injective oneFires
    obtain ⟨otherFull, otherStarts, otherIs⟩ := run.fullTransition_fires injective otherFires
    have identities : fullFingerprintAt windows first = fullFingerprintAt windows second := by
      rw [oneIs, otherIs, same]
    rcases Nat.lt_or_gt_of_ne different with before | after
    · exact full.ne_of_break oneFull otherFull before le_rfl otherStarts identities
    · exact full.ne_of_break otherFull oneFull after le_rfl oneStarts identities.symm
  · exact fun position previous window before present =>
      run.exhaustionTransition_eq before present
  · intro first last stays step after upTo window present
    obtain ⟨own, ownPresent, exhausted⟩ := stays step after upTo
    cases present.symm.trans ownPresent
    rw [run.exhaustionTransition_fingerprint present exhausted]
    refine exhaustion.eq_of_unbroken after fun later above below => ?_
    cases later with
    | zero => omega
    | succ later => exact ⟨stays later (by omega) (by omega), stays (later + 1) (by omega) (by omega)⟩
  · intro first middle last before after firstExhausted breaks lastExhausted
    refine exhaustion.ne_of_break firstExhausted lastExhausted before after.le ?_
    cases middle with
    | zero => exact id
    | succ middle => exact fun carries => breaks carries.2
  · intro first second firstFull secondExhausted same
    obtain ⟨origin, started⟩ := full.origin_exists firstFull
    obtain ⟨other, exhausted⟩ := exhaustion.origin_exists secondExhausted
    obtain ⟨window, present, -⟩ := started.active
    obtain ⟨input, found, -⟩ := run.step present
    obtain ⟨otherWindow, otherPresent, -⟩ := exhausted.active
    obtain ⟨otherInput, otherFound, -⟩ := run.step otherPresent
    rw [started.identity, exhausted.identity, found, otherFound, Option.map_some,
      Option.map_some, Option.some.injEq] at same
    exact fullFingerprint_ne_exhaustion injective _ _ _ _ _ _ _ _ _ _ same

/-- A window input at `clock` with `percent` basis points left. -/
def percentAt (percent : Int) (clock : Nat) : QuotaWindowInput :=
  ⟨.primary, some percent, none, none, none, none, clock⟩

def refilledWindows : List QuotaWindow :=
  match normalizeAll id none [percentAt 10000 1, percentAt 0 2, percentAt 10000 3] with
  | .ok windows => windows
  | .error _ => []

private theorem refilled_run : QuotaRun id .primary
    [percentAt 10000 1, percentAt 0 2, percentAt 10000 3] refilledWindows :=
  ⟨by rw [refilledWindows]; rfl, by decide, by decide⟩

theorem refill_fires : (fullTransitionAt id refilledWindows 2).isSome :=
  ((fingerprints_identify_cycles Function.injective_id refilled_run).1 1 _ _ (percentAt 10000 3)
    rfl rfl rfl).mpr ⟨rfl, Or.inl rfl⟩

end QuotaWindow

end ZenithRelay.Quota
