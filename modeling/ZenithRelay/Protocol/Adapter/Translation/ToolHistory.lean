import ZenithRelay.Foundations.BTreeMap
import ZenithRelay.Protocol.Adapter.Replay

/-!
# Linking tool results to their calls

A decoded history may lack call ids, as results are linked by name in some protocols.
Missing ids are given out and results linked first; then the whole history is checked.
-/

set_option autoImplicit false

namespace ZenithRelay.Protocol.Adapter.Translation

structure UrlCitation where
  start : Nat
  stop : Nat
  url : String
  title : String
  deriving DecidableEq, Repr

structure SearchCall where
  id : String
  query : String
  sources : Option (List String)
  deriving DecidableEq, Repr

inductive Block where
  | text (text : String)
  | citedText (text : String) (citations : List UrlCitation)
  | image (url : String) (detail : Option String)
  | document (url : String) (filename detail : Option String)
  | toolCall (id name arguments : String)
  | toolResult (id name : String) (content : List Block) (isError rawText : Bool)
  | reasoning (text : String)
  | refusal (text : String)
  | webSearch (search : SearchCall)

inductive Role where
  | user
  | assistant
  | system
  | developer
  deriving DecidableEq, Repr

structure Message where
  role : Role
  blocks : List Block

/-! ## Generated ids -/

def relayCallId (number : Nat) : String :=
  "call_relay_" ++ String.ofList (Nat.toDigits 10 number)

theorem relayCallId_injective : Function.Injective relayCallId := by
  intro first second same
  have digits : Nat.toDigits 10 first = Nat.toDigits 10 second := by
    simpa [relayCallId] using congrArg String.toList same
  rw [← @Nat.ofDigitChars_ten_toDigits first, digits, Nat.ofDigitChars_ten_toDigits]

open Classical in
/-- The known ids that are still to be tried. -/
noncomputable def idsAhead (known : Finset String) (generated : Nat) : Finset String :=
  known.filter fun id => ∃ number, generated ≤ number ∧ id = relayCallId number

private theorem mem_idsAhead {known : Finset String} {generated : Nat} {id : String} :
    id ∈ idsAhead known generated ↔
      id ∈ known ∧ ∃ number, generated ≤ number ∧ id = relayCallId number := by
  simp [idsAhead]

theorem idsAhead_next {known : Finset String} {generated : Nat}
    (taken : relayCallId generated ∈ known) :
    (idsAhead known (generated + 1)).card < (idsAhead known generated).card := by
  refine Finset.card_lt_card ⟨fun id member => ?_, fun all => ?_⟩
  · obtain ⟨present, number, later, same⟩ := mem_idsAhead.mp member
    exact mem_idsAhead.mpr ⟨present, number, by omega, same⟩
  · have first : relayCallId generated ∈ idsAhead known generated :=
      mem_idsAhead.mpr ⟨taken, generated, Nat.le_refl _, rfl⟩
    obtain ⟨-, number, later, same⟩ := mem_idsAhead.mp (all first)
    have := relayCallId_injective same
    omega

/-- The next generated id that is not known, and the counter after it. -/
def nextCallId (known : Finset String) (generated : Nat) : String × Nat :=
  if relayCallId generated ∈ known then nextCallId known (generated + 1)
  else (relayCallId generated, generated + 1)
termination_by (idsAhead known generated).card
decreasing_by exact idsAhead_next ‹_›

/-! ## The first pass -/

/-- The calls without a result so far, oldest first, and the ids in use. -/
structure CallLinks where
  pending : List (String × String)
  known : Finset String
  generated : Nat

/-- Whether a result belongs to a call: by its id, or else by its name. -/
def answers (id name : String) (call : String × String) : Bool :=
  if id = "" then call.2 = name else call.1 = id

def linkBlock (links : CallLinks) : Block → Except AdapterError (CallLinks × Block)
  | .toolCall id name arguments =>
    if id = "" then
      let next := nextCallId links.known links.generated
      .ok ({ pending := links.pending ++ [(next.1, name)]
             known := insert next.1 links.known
             generated := next.2 }, .toolCall next.1 name arguments)
    else
      .ok ({ links with pending := links.pending ++ [(id, name)] }, .toolCall id name arguments)
  | .toolResult id name content isError rawText =>
    match links.pending.find? (answers id name) with
    | none => .error .invalidRequest
    | some call =>
      if name ≠ "" ∧ name ≠ call.2 then .error .invalidRequest
      else
        -- the first call that answers is also the first that equals it
        .ok ({ links with pending := links.pending.erase call },
          .toolResult call.1 call.2 content isError rawText)
  | block => .ok (links, block)

def linkBlocks (links : CallLinks) : List Block → Except AdapterError (CallLinks × List Block)
  | [] => .ok (links, [])
  | block :: blocks => do
    let first ← linkBlock links block
    let rest ← linkBlocks first.1 blocks
    return (rest.1, first.2 :: rest.2)

def linkMessages (links : CallLinks) : List Message → Except AdapterError (CallLinks × List Message)
  | [] => .ok (links, [])
  | message :: messages => do
    let first ← linkBlocks links message.blocks
    let rest ← linkMessages first.1 messages
    return (rest.1, { message with blocks := first.2 } :: rest.2)

def Block.callId : Block → Option String
  | .toolCall id _ _ => some id
  | _ => none

def knownCallIds (messages : List Message) : Finset String :=
  ((messages.flatMap Message.blocks).filterMap Block.callId).toFinset

/-! ## The second pass -/

structure HistoryCheck where
  pending : BTreeMap String String
  seen : Finset String

section

variable (isObject : String → Bool)

/-- `isObject` tells whether a text parses as a JSON object. -/
def checkBlock (role : Role) (check : HistoryCheck) : Block → Except AdapterError HistoryCheck
  | .toolCall id name arguments =>
    if role ≠ .assistant ∨ Text.trim id = "" ∨ id ∈ check.seen ∨ isObject arguments = false ∨
        check.pending[id]? ≠ none then .error .invalidRequest
    else .ok ⟨check.pending.insert id name, insert id check.seen⟩
  | .toolResult id name _ _ _ =>
    if role ≠ .user then .error .invalidRequest
    else
      match check.pending[id]? with
      | none => .error .invalidRequest
      | some callName =>
        if name ≠ "" ∧ callName ≠ name then .error .invalidRequest
        else .ok { check with pending := check.pending.erase id }
  | _ =>
    if role ≠ .assistant ∧ !check.pending.isEmpty then .error .invalidRequest else .ok check

def checkMessage (check : HistoryCheck) (message : Message) : Except AdapterError HistoryCheck :=
  if message.role = .assistant ∧ !check.pending.isEmpty then .error .invalidRequest
  else message.blocks.foldlM (checkBlock isObject message.role) check

def validateToolHistory (messages : List Message) : Except AdapterError Unit := do
  let check ← messages.foldlM (checkMessage isObject) ⟨∅, ∅⟩
  if check.pending.isEmpty then return () else throw .invalidRequest

def resolveToolHistory (messages : List Message) : Except AdapterError (List Message) := do
  let linked ← linkMessages ⟨[], knownCallIds messages, 0⟩ messages
  validateToolHistory isObject linked.2
  return linked.2

end

end ZenithRelay.Protocol.Adapter.Translation
