import Mathlib

/-!
# Server-sent events

How a byte stream is cut into events at its blank lines. A CR ends a line by itself;
when its LF arrives later it is an empty event of its own.
-/

set_option autoImplicit false

namespace ZenithRelay.Protocol.Sse

abbrev Bytes := List UInt8

def lineFeed : UInt8 := 10
def carriageReturn : UInt8 := 13

def isTerminator (byte : UInt8) : Bool := byte = carriageReturn || byte = lineFeed

/-- The first CR or LF. -/
def terminatorPosition : Bytes → Option Nat
  | [] => none
  | first :: rest =>
    if isTerminator first = true then some 0 else (first :: rest).findIdx? isTerminator

/-- Where the first line's text ends, and where its terminator does. -/
def lineEnd (bytes : Bytes) : Option (Nat × Nat) :=
  (terminatorPosition bytes).map fun position =>
    let crlf := bytes[position]? = some carriageReturn && bytes[position + 1]? = some lineFeed
    (position, position + 1 + crlf.toNat)

theorem lineEnd_bounds {bytes : Bytes} {length ending : Nat}
    (found : lineEnd bytes = some (length, ending)) :
    length < ending ∧ length < bytes.length := by
  obtain ⟨position, located, found⟩ := Option.map_eq_some_iff.mp found
  cases found
  refine ⟨by omega, ?_⟩
  cases bytes with
  | nil => cases located
  | cons first rest =>
      rw [terminatorPosition] at located
      split at located
      · cases located
        exact Nat.succ_pos _
      · exact (List.findIdx?_eq_some_iff_findIdx_eq.mp located).1

/-- `event_end_from`: the end of the first event, when none ends before `offset`. -/
def eventEndFrom (bytes : Bytes) (offset : Nat) : Option Nat :=
  match _ : lineEnd (bytes.drop offset) with
  | none => none
  | some (length, ending) =>
    let position := offset + length
    if position = 0 ∨ bytes[position - 1]? = some lineFeed ∨
        (bytes[position - 1]? = some carriageReturn ∧ bytes[position]? ≠ some lineFeed) then
      some (offset + ending)
    else eventEndFrom bytes (offset + ending)
termination_by bytes.length - offset
decreasing_by
  have bounds := lineEnd_bounds ‹_›
  rw [List.length_drop] at bounds
  omega

def eventEnd (bytes : Bytes) : Option Nat := eventEndFrom bytes 0

def lines (bytes : Bytes) : List Bytes :=
  if bytes = [] then []
  else
    match _ : lineEnd bytes with
    | none => [bytes]
    | some (length, ending) => bytes.take length :: lines (bytes.drop ending)
termination_by bytes.length
decreasing_by
  have bounds := lineEnd_bounds ‹_›
  rw [List.length_drop]
  omega

def stripPrefix (marker bytes : Bytes) : Option Bytes :=
  if marker.isPrefixOf bytes then some (bytes.drop marker.length) else none

/-- The bytes of `data:`. -/
def dataField : Bytes := [0x64, 0x61, 0x74, 0x61, 0x3a]

/-- The payload of an event: its data lines, each without one optional space. -/
def eventData (sseEvent : Bytes) : Bytes :=
  let payloads := ((lines sseEvent).filterMap (stripPrefix dataField)).map fun payload =>
    (stripPrefix [0x20] payload).getD payload
  match payloads with
  | [] => []
  | first :: rest => rest.foldl (fun data payload => data ++ lineFeed :: payload) first

theorem eventEndFrom_bounds {bytes : Bytes} {offset ending : Nat}
    (found : eventEndFrom bytes offset = some ending) : offset < ending ∧ offset < bytes.length := by
  fun_induction eventEndFrom bytes offset with
  | case1 => cases found
  | case2 offset length finish line position blank =>
      cases found
      have bounds := lineEnd_bounds line
      rw [List.length_drop] at bounds
      omega
  | case3 offset length finish line position blank ih =>
      have bounds := lineEnd_bounds line
      have later := ih found
      rw [List.length_drop] at bounds
      omega

variable {State : Type} (stop : State → Bool) (handle : State → Bytes → State)

/-- The loop of `consume_frames`: what is left when no further event is complete. -/
def deliver (frames : Bytes) (scanFrom : Nat) (state : State) : Bytes × State :=
  match _ : eventEndFrom frames scanFrom with
  | none => (frames, state)
  | some ending =>
    let state := handle state (frames.take ending)
    if stop state = true then ([], state) else deliver (frames.drop ending) 0 state
termination_by frames.length
decreasing_by
  have bounds := eventEndFrom_bounds ‹_›
  rw [List.length_drop]
  omega

/-- The old tail has no complete event; its last byte is looked at again. -/
def consumeFrames (pending bytes : Bytes) (state : State) : Bytes × State :=
  if stop state = true then (pending, state)
  else
    let scanFrom := pending.length - 1
    let frames := if pending = [] then bytes else pending ++ bytes
    deliver stop handle frames scanFrom state

/-- What a call leaves behind; the buffer and the state outlive an error. -/
structure Fed (State : Type) where
  pending : Bytes
  state : State
  result : Except Unit Unit

def consumeBoundedFrames (limit : Nat) (pending bytes : Bytes) (state : State) : Fed State :=
  if bytes = [] ∨ stop state = true then ⟨pending, state, .ok ()⟩
  else
    let available := limit - pending.length
    if available = 0 then ⟨[], state, .error ()⟩
    else
      let count := min available bytes.length
      let consumed := consumeFrames stop handle pending (bytes.take count) state
      consumeBoundedFrames limit consumed.1 (bytes.drop count) consumed.2
termination_by bytes.length
decreasing_by
  rename_i more room
  have nonempty := List.length_pos_iff.mpr fun empty => more (.inl empty)
  rw [List.length_drop]
  omega

/-- Chunk after chunk, until a call fails. -/
def consumeChunks (limit : Nat) (chunks : List Bytes) (state : State) : Fed State :=
  chunks.foldl
    (fun fed chunk =>
      match fed.result with
      | .error () => fed
      | .ok () => consumeBoundedFrames stop handle limit fed.pending chunk fed.state)
    ⟨[], state, .ok ()⟩

end ZenithRelay.Protocol.Sse
