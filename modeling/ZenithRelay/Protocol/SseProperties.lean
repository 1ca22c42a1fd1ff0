import ZenithRelay.Protocol.Sse

/-!
# Framing does not depend on fragmentation

However a stream is cut into chunks, the same payloads are delivered. The first event
is found by a scan that remembers one byte; feeding chunks is compared with feeding
single bytes, from which only the LF after a CR can end up in another frame.
-/

set_option autoImplicit false

namespace ZenithRelay.Protocol.Sse

/-- Whether a byte, after the previous one, ends a blank line. -/
def endsBlankLine (previous : Option UInt8) (byte : UInt8) : Bool :=
  isTerminator byte && previous.all fun before =>
    before = lineFeed || (before = carriageReturn && byte ≠ lineFeed)

/-- One for the LF that belongs to a CR before it. -/
def trailingFeed (byte : UInt8) (rest : Bytes) : Nat :=
  (byte = carriageReturn && rest.head? = some lineFeed : Bool).toNat

theorem trailingFeed_le (byte : UInt8) (rest : Bytes) : trailingFeed byte rest ≤ rest.length := by
  cases rest with
  | nil => simp [trailingFeed]
  | cons next rest => exact Nat.le_trans (Bool.toNat_le _) (Nat.succ_pos _)

theorem trailingFeed_cases (byte : UInt8) (rest : Bytes) : trailingFeed byte rest = 0 ∨
    (byte = carriageReturn ∧ ∃ more, rest = lineFeed :: more ∧ trailingFeed byte rest = 1) := by
  cases rest with
  | nil => exact .inl (by simp [trailingFeed])
  | cons next rest =>
    by_cases split : byte = carriageReturn ∧ next = lineFeed
    · obtain ⟨rfl, rfl⟩ := split
      exact .inr ⟨rfl, rest, rfl, by simp [trailingFeed]⟩
    · exact .inl (by simpa [trailingFeed] using split)

private theorem getLast?_line (byte : UInt8) (rest : Bytes) :
    (byte :: rest.take (trailingFeed byte rest)).getLast? =
      some (if trailingFeed byte rest = 1 then lineFeed else byte) := by
  rcases trailingFeed_cases byte rest with none | ⟨rfl, more, rfl, one⟩
  · rw [none]
    rfl
  · rw [one]
    rfl

/-- The length of the first event, byte by byte. -/
def firstEvent (previous : Option UInt8) : Bytes → Option Nat
  | [] => none
  | byte :: rest =>
    if endsBlankLine previous byte = true then some (1 + trailingFeed byte rest)
    else (firstEvent (some byte) rest).map (· + 1)

/-! ## The scan by lines -/

theorem text_or_line (bytes : Bytes) : (∀ byte ∈ bytes, isTerminator byte = false) ∨
    ∃ text terminator rest, bytes = text ++ terminator :: rest ∧
      (∀ byte ∈ text, isTerminator byte = false) ∧ isTerminator terminator = true := by
  induction bytes with
  | nil => exact .inl fun _ member => absurd member List.not_mem_nil
  | cons byte rest ih =>
    cases ends : isTerminator byte with
    | true => exact .inr ⟨[], byte, rest, rfl, fun _ member => absurd member List.not_mem_nil, ends⟩
    | false =>
      rcases ih with plain | ⟨text, terminator, after, rfl, plain, isEnd⟩
      · exact .inl (List.forall_mem_cons.mpr ⟨ends, plain⟩)
      · exact .inr ⟨byte :: text, terminator, after, rfl, List.forall_mem_cons.mpr ⟨ends, plain⟩, isEnd⟩

private theorem terminatorPosition_text {bytes : Bytes}
    (plain : ∀ byte ∈ bytes, isTerminator byte = false) : terminatorPosition bytes = none := by
  cases bytes with
  | nil => rfl
  | cons first rest =>
    rw [terminatorPosition, if_neg (Bool.eq_false_iff.mp (plain first List.mem_cons_self))]
    exact List.findIdx?_eq_none_iff.mpr plain

private theorem terminatorPosition_line {text rest : Bytes} {terminator : UInt8}
    (plain : ∀ byte ∈ text, isTerminator byte = false) (ends : isTerminator terminator = true) :
    terminatorPosition (text ++ terminator :: rest) = some text.length := by
  cases text with
  | nil => exact if_pos ends
  | cons first text =>
    rw [List.cons_append, terminatorPosition,
      if_neg (Bool.eq_false_iff.mp (plain first List.mem_cons_self)), ← List.cons_append,
      List.findIdx?_append, List.findIdx?_eq_none_iff.mpr plain]
    simp [List.findIdx?_cons, ends]

theorem lineEnd_line {text rest : Bytes} {terminator : UInt8}
    (plain : ∀ byte ∈ text, isTerminator byte = false) (ends : isTerminator terminator = true) :
    lineEnd (text ++ terminator :: rest) =
      some (text.length, text.length + 1 + trailingFeed terminator rest) := by
  rw [lineEnd, terminatorPosition_line plain ends, Option.map_some]
  have next : (text ++ terminator :: rest)[text.length + 1]? = rest.head? := by
    rw [List.getElem?_append_right (by omega), List.head?_eq_getElem?]
    simp
  simp [trailingFeed, next]

theorem firstEvent_text (previous : Option UInt8) {text : Bytes}
    (plain : ∀ byte ∈ text, isTerminator byte = false) (rest : Bytes) :
    firstEvent previous (text ++ rest) =
      (firstEvent (text.getLast?.or previous) rest).map (· + text.length) := by
  induction text generalizing previous with
  | nil => simp
  | cons byte text ih =>
    have notEnd : endsBlankLine previous byte = false := by
      rw [endsBlankLine, plain byte List.mem_cons_self, Bool.false_and]
    rw [List.cons_append, firstEvent, notEnd, if_neg Bool.false_ne_true,
      ih _ fun other member => plain other (List.mem_cons_of_mem _ member), Option.map_map]
    have last : (byte :: text).getLast?.or previous = text.getLast?.or (some byte) := by
      cases text with
      | nil => rfl
      | cons next text => simp [List.getLast?_cons]
    rw [last]
    rfl

/-- After a terminator that ends no blank line the scan goes on behind its LF. -/
private theorem firstEvent_terminator {terminator : UInt8} (rest : Bytes) :
    firstEvent (some terminator) rest =
      (firstEvent (some (if trailingFeed terminator rest = 1 then lineFeed else terminator))
        (rest.drop (trailingFeed terminator rest))).map (· + trailingFeed terminator rest) := by
  rcases trailingFeed_cases terminator rest with none | ⟨rfl, more, rfl, one⟩
  · simp [none]
  · have inside : endsBlankLine (some carriageReturn) lineFeed = false := by decide
    rw [one, firstEvent, inside]
    rfl

private theorem blank_iff {line : Bytes} {terminator : UInt8} {rest : Bytes}
    (ends : isTerminator terminator = true) :
    (line.length = 0 ∨ (line ++ terminator :: rest)[line.length - 1]? = some lineFeed ∨
      ((line ++ terminator :: rest)[line.length - 1]? = some carriageReturn ∧
        (some terminator : Option UInt8) ≠ some lineFeed)) ↔
      endsBlankLine line.getLast? terminator = true := by
  rw [endsBlankLine, ends, Bool.true_and]
  rcases List.eq_nil_or_concat line with rfl | ⟨front, last, rfl⟩
  · simp
  · simp

/-- The scan by lines finds the same event as the scan by bytes. -/
theorem eventEndFrom_eq (before bytes : Bytes) :
    eventEndFrom (before ++ bytes) before.length =
      (firstEvent before.getLast? bytes).map (· + before.length) := by
  induction measured : bytes.length using Nat.strongRecOn generalizing before bytes with
  | ind size ih =>
    have suffix : (before ++ bytes).drop before.length = bytes := List.drop_left
    rw [eventEndFrom]
    rcases text_or_line bytes with plain | ⟨text, terminator, rest, rfl, plain, ends⟩
    · have noLine : lineEnd bytes = none := by rw [lineEnd, terminatorPosition_text plain]; rfl
      have unfound : firstEvent before.getLast? bytes = none := by
        simpa [firstEvent] using firstEvent_text before.getLast? plain []
      split
      · rw [unfound]
        rfl
      next line =>
        rw [suffix, noLine] at line
        cases line
    · split
      next line =>
        rw [suffix, lineEnd_line plain ends] at line
        cases line
      next length finish line =>
        rw [suffix, lineEnd_line plain ends] at line
        cases line
        -- the byte before the terminator decides whether its line is blank
        have previous : (before ++ text).getLast? = text.getLast?.or before.getLast? :=
          List.getLast?_append
        have there : (before ++ (text ++ terminator :: rest))[before.length + text.length]? =
            some terminator := by
          rw [← List.append_assoc, ← List.length_append, List.getElem?_append_right (Nat.le_refl _)]
          simp
        have decides : (before.length + text.length = 0 ∨
            (before ++ (text ++ terminator :: rest))[before.length + text.length - 1]? = some lineFeed ∨
              ((before ++ (text ++ terminator :: rest))[before.length + text.length - 1]? =
                  some carriageReturn ∧
                (before ++ (text ++ terminator :: rest))[before.length + text.length]? ≠ some lineFeed)) ↔
            endsBlankLine (before ++ text).getLast? terminator = true := by
          rw [there, ← List.append_assoc, ← List.length_append]
          exact blank_iff ends
        simp only [decides]
        rw [firstEvent_text _ plain, ← previous, firstEvent]
        split
        next blank =>
          simp only [Option.map_some]
          congr 1
          omega
        next more =>
          have split : before ++ (text ++ terminator :: rest) =
              (before ++ text ++ terminator :: rest.take (trailingFeed terminator rest)) ++
                rest.drop (trailingFeed terminator rest) := by
            simp
          have reached : before.length + (text.length + 1 + trailingFeed terminator rest) =
              (before ++ text ++ terminator :: rest.take (trailingFeed terminator rest)).length := by
            simp [trailingFeed_le]
            omega
          rw [split, reached, ih _ (by rw [← measured]; simp; omega) _ _ rfl, firstEvent_terminator rest,
            List.getLast?_append, getLast?_line, Option.some_or]
          simp only [Option.map_map]
          congr 1
          funext ending
          simp [trailingFeed_le]
          omega

theorem eventEnd_eq (bytes : Bytes) : eventEnd bytes = firstEvent none bytes := by
  simpa [eventEnd] using eventEndFrom_eq [] bytes

/-! ## Complete and incomplete prefixes -/

private theorem firstEvent_append {previous : Option UInt8} {first : Bytes}
    (incomplete : firstEvent previous first = none) (rest : Bytes) :
    firstEvent previous (first ++ rest) =
      (firstEvent (first.getLast?.or previous) rest).map (· + first.length) := by
  induction first generalizing previous with
  | nil => simp
  | cons byte first ih =>
    rw [firstEvent] at incomplete
    split at incomplete
    · cases incomplete
    next inside =>
      rw [List.cons_append, firstEvent, if_neg inside, ih (Option.map_eq_none_iff.mp incomplete),
        Option.map_map, List.getLast?_cons]
      cases first.getLast? <;> rfl

theorem firstEvent_front {previous : Option UInt8} {first rest : Bytes}
    (incomplete : firstEvent previous (first ++ rest) = none) : firstEvent previous first = none := by
  induction first generalizing previous with
  | nil => rfl
  | cons byte first ih =>
    rw [List.cons_append, firstEvent] at incomplete
    split at incomplete
    · cases incomplete
    next inside =>
      rw [firstEvent, if_neg inside, ih (Option.map_eq_none_iff.mp incomplete)]
      rfl

/-- The first event ends with the first byte that completes it, and its LF. -/
private theorem firstEvent_some {previous : Option UInt8} {bytes : Bytes} {ending : Nat}
    (found : firstEvent previous bytes = some ending) :
    ∃ front byte rest, bytes = front ++ byte :: rest ∧ firstEvent previous front = none ∧
      (firstEvent previous (front ++ [byte])).isSome = true ∧
      ending = front.length + 1 + trailingFeed byte rest := by
  induction bytes generalizing previous ending with
  | nil => cases found
  | cons byte bytes ih =>
    rw [firstEvent] at found
    split at found
    next ends =>
      cases found
      refine ⟨[], byte, bytes, rfl, rfl, ?_, by simp⟩
      rw [List.nil_append, firstEvent, if_pos ends]
      rfl
    next inside =>
      obtain ⟨later, shorter, rfl⟩ := Option.map_eq_some_iff.mp found
      obtain ⟨front, last, rest, rfl, incomplete, complete, rfl⟩ := ih shorter
      refine ⟨byte :: front, last, rest, rfl, ?_, ?_, ?_⟩
      · rw [firstEvent, if_neg inside, incomplete]
        rfl
      · rw [List.cons_append, firstEvent, if_neg inside, Option.isSome_map]
        exact complete
      · simp only [List.length_cons]
        omega

theorem eventEnd_some {bytes : Bytes} {ending : Nat} (found : eventEnd bytes = some ending) :
    ∃ front byte rest, bytes = front ++ byte :: rest ∧ eventEnd front = none ∧
      (eventEnd (front ++ [byte])).isSome = true ∧
      ending = front.length + 1 + trailingFeed byte rest := by
  simp only [eventEnd_eq] at found ⊢
  exact firstEvent_some found

theorem eventEnd_front {first rest : Bytes} (incomplete : eventEnd (first ++ rest) = none) :
    eventEnd first = none := by
  rw [eventEnd_eq] at incomplete ⊢
  exact firstEvent_front incomplete

/-- The last byte of an incomplete tail is all that has to be looked at again. -/
private theorem eventEndFrom_resume {pending : Bytes} (incomplete : eventEnd pending = none)
    (bytes : Bytes) :
    eventEndFrom (pending ++ bytes) (pending.length - 1) = eventEnd (pending ++ bytes) := by
  rw [eventEnd_eq] at incomplete ⊢
  rcases List.eq_nil_or_concat pending with rfl | ⟨front, last, rfl⟩
  · simpa using eventEndFrom_eq [] bytes
  · have start : (front.concat last).length - 1 = front.length := by simp
    rw [List.concat_eq_append] at incomplete ⊢
    rw [List.append_assoc, firstEvent_append (firstEvent_front incomplete), Option.or_none]
    simpa using eventEndFrom_eq front ([last] ++ bytes)

/-! ## Payloads -/

/-- The payloads that frames carry. -/
def payloads (frames : List Bytes) : List Bytes := (frames.map eventData).filter (· ≠ [])

theorem lines_line {text : Bytes} {terminator : UInt8}
    (plain : ∀ byte ∈ text, isTerminator byte = false) (ends : isTerminator terminator = true)
    (rest : Bytes) :
    lines (text ++ terminator :: rest) =
      text :: lines (rest.drop (trailingFeed terminator rest)) := by
  rw [lines, if_neg (by simp)]
  split
  next line =>
    rw [lineEnd_line plain ends] at line
    cases line
  next length ending line =>
    rw [lineEnd_line plain ends] at line
    cases line
    congr 1
    · simp
    · rw [Nat.add_assoc, ← List.drop_drop, List.drop_left, Nat.add_comm, List.drop_succ_cons]

private theorem lines_terminator (front : Bytes) :
    lines (front ++ [carriageReturn, lineFeed]) = lines (front ++ [carriageReturn]) := by
  have isEnd : isTerminator carriageReturn = true := by decide
  induction measured : front.length using Nat.strongRecOn generalizing front with
  | ind size ih =>
    rcases text_or_line front with plain | ⟨text, terminator, rest, rfl, plain, ends⟩
    · rw [lines_line plain isEnd, lines_line plain isEnd]
      rfl
    · have sameFeed : trailingFeed terminator (rest ++ [carriageReturn, lineFeed]) =
          trailingFeed terminator (rest ++ [carriageReturn]) := by
        cases rest <;> rfl
      have within : trailingFeed terminator (rest ++ [carriageReturn]) ≤ rest.length := by
        cases rest with
        | nil => simp [trailingFeed, carriageReturn, lineFeed]
        | cons next rest => exact trailingFeed_le terminator (next :: rest)
      rw [List.append_assoc, List.append_assoc, List.cons_append, List.cons_append,
        lines_line plain ends, lines_line plain ends, sameFeed,
        List.drop_append_of_le_length within, List.drop_append_of_le_length within,
        ih _ ?_ _ rfl]
      rw [← measured, List.length_drop, List.length_append, List.length_cons]
      omega

/-- An LF that follows the CR of a frame adds no payload to it. -/
private theorem eventData_trailingFeed (front : Bytes) :
    eventData (front ++ [carriageReturn, lineFeed]) = eventData (front ++ [carriageReturn]) := by
  rw [eventData, lines_terminator]
  rfl

private theorem eventData_lineFeed : eventData [lineFeed] = [] := by
  have empty : lines [lineFeed] = [[]] := by
    simp [lines, lineEnd, terminatorPosition, isTerminator, lineFeed, carriageReturn]
  rw [eventData, empty]
  rfl

/-! ## One byte at a time -/

/-- A caller that keeps every frame and never stops. -/
def record (frames : List Bytes) (frame : Bytes) : List Bytes := frames ++ [frame]

def never (_ : List Bytes) : Bool := false

/-- The framing of single bytes: a frame is delivered as soon as it is complete. -/
def push (limit : Nat) (fed : Fed (List Bytes)) (byte : UInt8) : Fed (List Bytes) :=
  match fed.result with
  | .error () => fed
  | .ok () =>
    if limit ≤ fed.pending.length then ⟨[], fed.state, .error ()⟩
    else if (eventEnd (fed.pending ++ [byte])).isSome = true then
      ⟨[], record fed.state (fed.pending ++ [byte]), .ok ()⟩
    else ⟨fed.pending ++ [byte], fed.state, .ok ()⟩

/-- The same payloads and the same bytes, perhaps with an LF in a frame of its own. -/
structure SameFrames (frames single : List Bytes) : Prop where
  payloads : payloads frames = payloads single
  bytes : frames.flatten = single.flatten

structure Agrees (fed single : Fed (List Bytes)) : Prop where
  pending : fed.pending = single.pending
  result : fed.result = single.result
  frames : SameFrames fed.state single.state

theorem SameFrames.append {frames single more singleMore : List Bytes}
    (same : SameFrames frames single) (added : SameFrames more singleMore) :
    SameFrames (frames ++ more) (single ++ singleMore) where
  payloads := by
    have first := same.payloads
    have second := added.payloads
    unfold Sse.payloads at first second ⊢
    rw [List.map_append, List.map_append, List.filter_append, List.filter_append, first, second]
  bytes := by rw [List.flatten_append, List.flatten_append, same.bytes, added.bytes]

theorem SameFrames.refl (frames : List Bytes) : SameFrames frames frames := ⟨rfl, rfl⟩

variable {limit : Nat} {frames single : List Bytes}

/-- Bytes that complete no event are only kept. -/
theorem push_incomplete {pending bytes : Bytes} (incomplete : eventEnd (pending ++ bytes) = none)
    (fits : (pending ++ bytes).length ≤ limit) (frames : List Bytes) :
    bytes.foldl (push limit) ⟨pending, frames, .ok ()⟩ = ⟨pending ++ bytes, frames, .ok ()⟩ := by
  induction bytes generalizing pending with
  | nil => simp
  | cons byte bytes ih =>
    have joined : pending ++ byte :: bytes = (pending ++ [byte]) ++ bytes := by simp
    rw [joined] at incomplete fits ⊢
    have open_ : eventEnd (pending ++ [byte]) = none := by
      rw [eventEnd_eq] at incomplete ⊢
      exact firstEvent_front incomplete
    have room : ¬limit ≤ pending.length := by
      simp only [List.length_append, List.length_singleton] at fits
      omega
    rw [List.foldl_cons, push]
    simp only [if_neg room, open_, Option.isSome_none, Bool.false_eq_true, if_false]
    exact ih incomplete fits

/-- The byte that completes an event delivers it. -/
theorem push_complete {pending : Bytes} {byte : UInt8} (room : pending.length < limit)
    (complete : (eventEnd (pending ++ [byte])).isSome = true) (frames : List Bytes) :
    push limit ⟨pending, frames, .ok ()⟩ byte = ⟨[], record frames (pending ++ [byte]), .ok ()⟩ := by
  rw [push]
  simp only [if_neg (Nat.not_le.mpr room), complete, if_true]

theorem push_failed (bytes : Bytes) {fed : Fed (List Bytes)} (failed : fed.result = .error ()) :
    bytes.foldl (push limit) fed = fed := by
  induction bytes with
  | nil => rfl
  | cons byte bytes ih =>
    rw [List.foldl_cons, push, failed]
    exact ih

private theorem eventEnd_lineFeed (rest : Bytes) : eventEnd (lineFeed :: rest) = some 1 := by
  rw [eventEnd_eq, firstEvent, if_pos (by decide)]
  rfl

/-- The first event, as single bytes deliver it: with its LF apart. -/
theorem push_event {front rest : Bytes} {byte : UInt8} (incomplete : eventEnd front = none)
    (complete : (eventEnd (front ++ [byte])).isSome = true) (room : front.length < limit)
    (frames : List Bytes) :
    ∃ delivered,
      SameFrames [(front ++ byte :: rest).take (front.length + 1 + trailingFeed byte rest)]
          delivered ∧
        (front ++ byte :: rest).foldl (push limit) ⟨[], frames, .ok ()⟩ =
          ((front ++ byte :: rest).drop (front.length + 1 + trailingFeed byte rest)).foldl
            (push limit) ⟨[], frames ++ delivered, .ok ()⟩ := by
  have kept := @push_incomplete limit [] front incomplete (Nat.le_of_lt room) frames
  rw [List.nil_append] at kept
  have taken : (front ++ byte :: rest).take (front.length + 1 + trailingFeed byte rest) =
      front ++ byte :: rest.take (trailingFeed byte rest) := by
    rw [Nat.add_assoc, List.take_length_add_append, Nat.add_comm, List.take_succ_cons]
  have dropped : (front ++ byte :: rest).drop (front.length + 1 + trailingFeed byte rest) =
      rest.drop (trailingFeed byte rest) := by
    rw [Nat.add_assoc, ← List.drop_drop, List.drop_left, Nat.add_comm, List.drop_succ_cons]
  rw [taken, dropped, List.foldl_append, kept, List.foldl_cons, push_complete room complete]
  rcases trailingFeed_cases byte rest with feed | ⟨rfl, more, rfl, feed⟩
  · rw [feed]
    exact ⟨[front ++ [byte]], .refl _, rfl⟩
  · -- the event ends with a CR, and its LF is next
    rw [feed]
    have lone : (eventEnd ([] ++ [lineFeed])).isSome = true := by
      rw [List.nil_append, eventEnd_lineFeed]
      rfl
    refine ⟨[front ++ [carriageReturn], [lineFeed]], ⟨?_, by simp⟩, ?_⟩
    · have empty : [eventData (front ++ [carriageReturn]), []] =
          [eventData (front ++ [carriageReturn])] ++ [[]] := rfl
      simp only [payloads, List.map_cons, List.map_nil, eventData_lineFeed, List.take_succ_cons,
        List.take_zero, eventData_trailingFeed]
      rw [empty, List.filter_append]
      simp
    · rw [List.drop_succ_cons, List.foldl_cons, push_complete (Nat.zero_lt_of_lt room) lone]
      simp [record]

/-! ## Chunks -/

/-- What is left after the events of a chunk is incomplete, and single bytes leave the same. -/
private theorem deliver_agrees {bytes : Bytes} {scanFrom : Nat}
    (resumed : eventEndFrom bytes scanFrom = eventEnd bytes) (fits : bytes.length ≤ limit)
    (same : SameFrames frames single) :
    ∃ delivered, bytes.foldl (push limit) ⟨[], single, .ok ()⟩ =
        ⟨(deliver never record bytes scanFrom frames).1, delivered, .ok ()⟩ ∧
      SameFrames (deliver never record bytes scanFrom frames).2 delivered ∧
      eventEnd (deliver never record bytes scanFrom frames).1 = none := by
  induction measured : bytes.length using Nat.strongRecOn
    generalizing bytes scanFrom frames single with
  | ind size ih =>
    rw [deliver]
    split
    next incomplete =>
      rw [resumed] at incomplete
      have kept := @push_incomplete limit [] bytes incomplete (by simpa using fits) single
      exact ⟨single, by simpa using kept, same, incomplete⟩
    next ending found =>
      rw [resumed] at found
      have bounds := eventEndFrom_bounds found
      obtain ⟨front, byte, rest, rfl, incomplete, complete, rfl⟩ := eventEnd_some found
      have room : front.length < limit := by
        rw [List.length_append, List.length_cons] at fits
        omega
      obtain ⟨delivered, apart, moved⟩ := @push_event limit _ rest _ incomplete complete room single
      have shorter := @List.length_drop _ (front.length + 1 + trailingFeed byte rest)
        (front ++ byte :: rest)
      rw [moved]
      simp only [never, Bool.false_eq_true, if_false]
      exact ih _ (by omega) rfl (by omega) (same.append apart) rfl

private theorem consumeFrames_agrees {pending bytes : Bytes} (incomplete : eventEnd pending = none)
    (fits : (pending ++ bytes).length ≤ limit) (same : SameFrames frames single) :
    ∃ delivered, bytes.foldl (push limit) ⟨pending, single, .ok ()⟩ =
        ⟨(consumeFrames never record pending bytes frames).1, delivered, .ok ()⟩ ∧
      SameFrames (consumeFrames never record pending bytes frames).2 delivered ∧
      eventEnd (consumeFrames never record pending bytes frames).1 = none := by
  have joined : (if pending = [] then bytes else pending ++ bytes) = pending ++ bytes := by
    split
    next empty => rw [empty, List.nil_append]
    · rfl
  have earlier : pending.length ≤ limit := by
    rw [List.length_append] at fits
    omega
  have kept := @push_incomplete limit [] pending incomplete (by simpa using earlier) single
  obtain ⟨delivered, moved, rest⟩ :=
    deliver_agrees (eventEndFrom_resume incomplete bytes) fits same
  rw [List.foldl_append, kept, List.nil_append] at moved
  rw [consumeFrames, joined]
  exact ⟨delivered, moved, rest⟩

/-- No frame and no rest is longer than what was looked at. -/
private theorem deliver_bounded {bytes : Bytes} {scanFrom : Nat} (fits : bytes.length ≤ limit)
    (bounded : ∀ frame ∈ frames, frame.length ≤ limit) :
    (deliver never record bytes scanFrom frames).1.length ≤ limit ∧
      ∀ frame ∈ (deliver never record bytes scanFrom frames).2, frame.length ≤ limit := by
  fun_induction deliver never record bytes scanFrom frames with
  | case1 => exact ⟨fits, bounded⟩
  | case2 => simp_all [never]
  | case3 bytes scanFrom frames ending found delivered continues ih =>
    refine ih (by rw [List.length_drop]; omega) fun frame member => ?_
    rcases List.mem_append.mp member with before | last
    · exact bounded frame before
    · rw [List.mem_singleton.mp last, List.length_take]
      omega

theorem consumeFrames_bounded {pending bytes : Bytes} (fits : (pending ++ bytes).length ≤ limit)
    (bounded : ∀ frame ∈ frames, frame.length ≤ limit) :
    (consumeFrames never record pending bytes frames).1.length ≤ limit ∧
      ∀ frame ∈ (consumeFrames never record pending bytes frames).2, frame.length ≤ limit := by
  rw [consumeFrames]
  refine deliver_bounded ?_ bounded
  split
  · rw [List.length_append] at fits
    omega
  · exact fits

private theorem consumeBoundedFrames_bounded {pending bytes : Bytes} (fits : pending.length ≤ limit)
    (bounded : ∀ frame ∈ frames, frame.length ≤ limit) :
    (consumeBoundedFrames never record limit pending bytes frames).pending.length ≤ limit ∧
      ∀ frame ∈ (consumeBoundedFrames never record limit pending bytes frames).state,
        frame.length ≤ limit := by
  fun_induction consumeBoundedFrames never record limit pending bytes frames with
  | case1 => exact ⟨fits, bounded⟩
  | case2 => exact ⟨Nat.zero_le _, bounded⟩
  | case3 pending bytes frames more available room count consumed ih =>
    have within : (pending ++ bytes.take count).length ≤ limit := by
      rw [List.length_append, List.length_take]
      omega
    have after := consumeFrames_bounded within bounded
    exact ih after.1 after.2

private theorem consumeBoundedFrames_agrees {pending bytes : Bytes} (incomplete : eventEnd pending = none)
    (fits : pending.length ≤ limit) (bounded : ∀ frame ∈ frames, frame.length ≤ limit)
    (same : SameFrames frames single) :
    Agrees (consumeBoundedFrames never record limit pending bytes frames)
        (bytes.foldl (push limit) ⟨pending, single, .ok ()⟩) ∧
      eventEnd (consumeBoundedFrames never record limit pending bytes frames).pending = none := by
  induction measured : bytes.length using Nat.strongRecOn
    generalizing pending bytes frames single with
  | ind size ih =>
    rw [consumeBoundedFrames]
    split
    next done =>
      obtain rfl : bytes = [] := done.resolve_right (by simp [never])
      exact ⟨⟨rfl, rfl, same⟩, incomplete⟩
    next more =>
      have nonempty : bytes ≠ [] := fun empty => more (.inl empty)
      dsimp only
      split
      next full =>
        -- the buffer is full and there is another byte
        obtain ⟨byte, rest, rfl⟩ := List.exists_cons_of_ne_nil nonempty
        have refused : push limit ⟨pending, single, .ok ()⟩ byte = ⟨[], single, .error ()⟩ := by
          rw [push]
          simp only [if_pos (Nat.sub_eq_zero_iff_le.mp full)]
        rw [List.foldl_cons, refused, push_failed rest rfl]
        exact ⟨⟨rfl, rfl, same⟩, by rw [eventEnd_eq]; rfl⟩
      next room =>
        have cut : bytes = bytes.take (min (limit - pending.length) bytes.length) ++
            bytes.drop (min (limit - pending.length) bytes.length) :=
          (List.take_append_drop ..).symm
        have within : (pending ++ bytes.take (min (limit - pending.length) bytes.length)).length ≤
            limit := by
          rw [List.length_append, List.length_take]
          omega
        obtain ⟨delivered, moved, sameAfter, incompleteAfter⟩ :=
          consumeFrames_agrees incomplete within same
        have shorter : (bytes.drop (min (limit - pending.length) bytes.length)).length < size := by
          have positive := List.length_pos_iff.mpr nonempty
          rw [List.length_drop]
          omega
        rw [cut, List.foldl_append, ← cut, moved]
        obtain ⟨fitsAfter, boundedAfter⟩ := consumeFrames_bounded within bounded
        exact ih _ shorter incompleteAfter fitsAfter boundedAfter sameAfter rfl

/-- What every call leaves behind, compared with single bytes. -/
structure Framed (limit : Nat) (fed single : Fed (List Bytes)) : Prop where
  agrees : Agrees fed single
  incomplete : eventEnd fed.pending = none
  pending : fed.pending.length ≤ limit
  frames : ∀ frame ∈ fed.state, frame.length ≤ limit

theorem consumeChunks_framed (limit : Nat) (chunks : List Bytes) :
    Framed limit (consumeChunks never record limit chunks [])
      (chunks.flatten.foldl (push limit) ⟨[], [], .ok ()⟩) := by
  have incomplete : eventEnd [] = none := by rw [eventEnd_eq]; rfl
  induction chunks using List.reverseRecOn with
  | nil =>
    exact ⟨⟨rfl, rfl, .refl _⟩, incomplete, Nat.zero_le _, fun _ member =>
      absurd member List.not_mem_nil⟩
  | append_singleton chunks chunk ih =>
    rw [consumeChunks, List.foldl_append, ← consumeChunks, List.flatten_append, List.foldl_append]
    simp only [List.foldl_cons, List.foldl_nil, List.flatten_cons, List.flatten_nil, List.append_nil]
    generalize chunks.flatten.foldl (push limit) ⟨[], [], .ok ()⟩ = singleFed at ih ⊢
    generalize consumeChunks never record limit chunks [] = fed at ih ⊢
    obtain ⟨⟨pending, result, same⟩, open_, fits, bounded⟩ := ih
    obtain ⟨fedPending, fedFrames, fedResult⟩ := fed
    obtain ⟨singlePending, singleFrames, singleResult⟩ := singleFed
    dsimp only at pending result same open_ fits bounded
    subst pending result
    cases fedResult with
    | error _ =>
        rw [push_failed chunk rfl]
        exact ⟨⟨rfl, rfl, same⟩, open_, fits, bounded⟩
    | ok _ =>
        obtain ⟨agrees, openAfter⟩ := @consumeBoundedFrames_agrees limit _ _ _ chunk open_ fits bounded same
        obtain ⟨fitsAfter, boundedAfter⟩ := @consumeBoundedFrames_bounded limit _ _ chunk fits bounded
        exact ⟨agrees, openAfter, fitsAfter, boundedAfter⟩

/-! ## What single bytes deliver -/

/-- Nothing is lost: what was delivered and what is kept are the bytes so far. -/
private theorem push_bytes (limit : Nat) (bytes : Bytes) :
    let fed := bytes.foldl (push limit) ⟨[], [], .ok ()⟩
    (fed.result = .ok () → fed.state.flatten ++ fed.pending = bytes) ∧ fed.state.flatten <+: bytes := by
  induction bytes using List.reverseRecOn with
  | nil => exact ⟨fun _ => rfl, List.nil_prefix⟩
  | append_singleton bytes byte ih =>
    rw [List.foldl_append, List.foldl_cons, List.foldl_nil]
    generalize bytes.foldl (push limit) ⟨[], [], .ok ()⟩ = fed at ih ⊢
    obtain ⟨pending, frames, result⟩ := fed
    obtain ⟨exact_, initially⟩ := ih
    have longer := initially.trans (List.prefix_append bytes [byte])
    cases result with
    | error _ => exact ⟨fun ok => (by cases ok), longer⟩
    | ok _ =>
        have whole : frames.flatten ++ pending = bytes := exact_ rfl
        dsimp only [push]
        split
        · exact ⟨fun ok => (by cases ok), longer⟩
        · split
          · have joined : (record frames (pending ++ [byte])).flatten = bytes ++ [byte] := by
              rw [record, List.flatten_concat, ← List.append_assoc, whole]
            exact ⟨fun _ => by rw [joined, List.append_nil], joined ▸ List.prefix_rfl⟩
          · exact ⟨fun _ => by rw [← List.append_assoc, whole], longer⟩

/-- Some event of the stream has more than `limit` bytes, and no end within `limit`. -/
inductive Overlong (limit : Nat) : Bytes → Prop
  | here {input : Bytes} (longer : limit < input.length)
      (unterminated : eventEnd (input.take limit) = none) : Overlong limit input
  | later {input : Bytes} {length : Nat} (event : eventEnd input = some length)
      (rest : Overlong limit (input.drop length)) : Overlong limit input

/-- An event that is longer than the limit fails the call. -/
private theorem push_unterminated {bytes : Bytes} (longer : limit < bytes.length)
    (unterminated : eventEnd (bytes.take limit) = none) (frames : List Bytes) :
    (bytes.foldl (push limit) ⟨[], frames, .ok ()⟩).result = .error () := by
  have full : (bytes.take limit).length = limit := by
    rw [List.length_take]
    omega
  have kept := @push_incomplete limit [] _ unterminated (Nat.le_of_eq full) frames
  rw [List.nil_append] at kept
  obtain ⟨byte, rest, next⟩ : ∃ byte rest, bytes.drop limit = byte :: rest :=
    List.exists_cons_of_length_pos (by rw [List.length_drop]; omega)
  have refused : push limit ⟨bytes.take limit, frames, .ok ()⟩ byte = ⟨[], frames, .error ()⟩ := by
    rw [push]
    simp only [if_pos (Nat.le_of_eq full.symm)]
  rw [← List.take_append_drop limit bytes, List.foldl_append, kept, next, List.foldl_cons, refused,
    push_failed rest rfl]

private theorem push_overlong (bytes : Bytes) (frames : List Bytes) :
    (bytes.foldl (push limit) ⟨[], frames, .ok ()⟩).result = .error () ↔ Overlong limit bytes := by
  induction measured : bytes.length using Nat.strongRecOn generalizing bytes frames with
  | ind size ih =>
    by_cases first : limit < bytes.length ∧ eventEnd (bytes.take limit) = none
    · exact iff_of_true (push_unterminated first.1 first.2 frames) (.here first.1 first.2)
    cases found : eventEnd bytes with
    | none =>
      -- all of the bytes are one event that may still end in time
      have fits : bytes.length ≤ limit := by
        by_contra longer
        refine first ⟨Nat.lt_of_not_le longer, @eventEnd_front _ (bytes.drop limit) ?_⟩
        rw [List.take_append_drop, found]
      have kept := @push_incomplete limit [] bytes found (by simpa using fits) frames
      refine iff_of_false (by rw [kept]; exact fun failed => by cases failed) fun overlong => ?_
      cases overlong with
      | here longer => omega
      | later event =>
        rw [found] at event
        cases event
    | some ending =>
      have positive := (eventEndFrom_bounds found)
      have shorter := @List.length_drop _ ending bytes
      have later : Overlong limit bytes ↔ Overlong limit (bytes.drop ending) := by
        refine ⟨fun overlong => ?_, .later found⟩
        cases overlong with
        | here longer unterminated => exact absurd ⟨longer, unterminated⟩ first
        | later event rest =>
          rw [found] at event
          cases event
          exact rest
      rw [later]
      obtain ⟨front, byte, rest, rfl, incomplete, complete, rfl⟩ := eventEnd_some found
      have room : front.length < limit := by
        by_contra full
        refine first ⟨?_, ?_⟩
        · rw [List.length_append, List.length_cons]
          omega
        · rw [List.take_append_of_le_length (Nat.le_of_not_lt full)]
          refine @eventEnd_front _ (front.drop limit) ?_
          rw [List.take_append_drop, incomplete]
      obtain ⟨delivered, -, moved⟩ := @push_event limit _ rest _ incomplete complete room frames
      rw [moved]
      exact ih _ (by omega) _ _ rfl

/-! ## Fragmentation -/

/-- A stream delivers the same payloads and ends the same however it is cut. Frames and
buffer are the input as long as no call fails and stay within the limit; a call fails
exactly when some event is longer than that. -/
theorem framing_independent_of_fragmentation (limit : Nat) (chunks : List Bytes) :
    let fed := consumeChunks never record limit chunks []
    let whole := consumeBoundedFrames never record limit [] chunks.flatten []
    payloads fed.state = payloads whole.state ∧ fed.result = whole.result ∧
      (fed.result = .ok () → fed.state.flatten ++ fed.pending = chunks.flatten) ∧
      fed.state.flatten <+: chunks.flatten ∧
      (∀ frame ∈ fed.state, frame.length ≤ limit) ∧ fed.pending.length ≤ limit ∧
      (fed.result = .error () ↔ Overlong limit chunks.flatten) := by
  intro fed whole
  obtain ⟨⟨pending, result, same⟩, -, fits, bounded⟩ := consumeChunks_framed limit chunks
  have atOnce := (consumeChunks_framed limit [chunks.flatten]).agrees
  rw [List.flatten_cons, List.flatten_nil, List.append_nil] at atOnce
  obtain ⟨exact_, initially⟩ := push_bytes limit chunks.flatten
  refine ⟨same.payloads.trans atOnce.frames.payloads.symm, result.trans atOnce.result.symm, ?_, ?_,
    bounded, fits, ?_⟩
  · intro ok
    rw [same.bytes, pending]
    exact exact_ (result.symm.trans ok)
  · rw [same.bytes]
    exact initially
  · rw [result]
    exact push_overlong chunks.flatten []

/-- A call that fails drops what was kept of the event. -/
theorem failed_call_drops_tail : ¬∀ (limit : Nat) (chunks : List Bytes) (chunk : Bytes), 1 ≤ limit →
    chunks.flatten <+: (consumeChunks never record limit (chunks ++ [chunk]) []).state.flatten ++
      (consumeChunks never record limit (chunks ++ [chunk]) []).pending := by
  intro kept
  have dropped := kept 1 [[97]] [98] (Nat.le_refl 1)
  obtain ⟨⟨pending, -, same⟩, -⟩ := consumeChunks_framed 1 ([[97]] ++ [[98]])
  rw [pending, same.bytes] at dropped
  have incomplete : eventEnd [97] = none := by
    rw [eventEnd_eq]
    decide
  simp [push, incomplete] at dropped

end ZenithRelay.Protocol.Sse
