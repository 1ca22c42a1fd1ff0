import ZenithRelay.Foundations.Integers
import ZenithRelay.Foundations.JsonObjects

/-!
# Completed items of a response

The ciphertext of completed reasoning items is kept in the terminal output; provider
state is not interpreted otherwise.
-/

set_option autoImplicit false

namespace ZenithRelay.Protocol.ResponseSnapshots

def isReasoning (item : Json) : Bool := (item.get "type").bind (·.asStr) == some "reasoning"

/-- `value[key] = replacement`, of an object. -/
def putField (value : Json) (key : String) (replacement : Json) : Json :=
  match value with
  | .object fields => .object (Json.insert fields key replacement)
  | _ => value

/-- The ciphertext of a completed item, where it is a string. -/
def ciphertext (item : Json) : Option String := (item.get "encrypted_content").bind (·.asStr)

/-- Errors are named by the parameter of the adapter error. -/
def retainCompletedReasoning (previous terminal : Json) : Except String Json :=
  if isReasoning previous = false ∨ isReasoning terminal = false then .ok terminal
  else
    match ciphertext previous with
    | none => .ok terminal
    | some completed =>
      if (terminal.get "encrypted_content").any fun value =>
          !value.isNull && value.asStr.isNone then
        .error "response.output_item.encrypted_content"
      else if ciphertext terminal = some completed then .ok terminal
      else .ok (putField terminal "encrypted_content" (.string completed))

def invalid : String := "response.output_item.changed"

/-- The positions of the output with this id. -/
def positionsOf (output : List Json) (id : String) : List Nat :=
  (List.range output.length).filter fun position =>
    (output[position]?.bind (·.get "id")).bind (·.asStr) == some id

/-- The place of a completed item in the output: its index, else its id if that is unique. -/
def position (index : Option Nat) (item : Json) (output : List Json) : Except String Nat :=
  match index with
  | some index => if index ≤ usizeMax then .ok index else .error invalid
  | none =>
    match ((item.get "id").bind (·.asStr)).filter fun id => id != "" with
    | none => .error invalid
    | some id =>
      match positionsOf output id with
      | [position] => .ok position
      | _ => .error invalid

/-- One completed item in `retain_completed_reasoning_items`. -/
def retainItem (output : List Json) (completed : Option Nat × Json) : Except String (List Json) :=
  let (index, item) := completed
  if isReasoning item = false ∨ ciphertext item = none then .ok output
  else do
    let index ← position index item output
    match output[index]? with
    | none => .error invalid
    | some terminal =>
      if isReasoning terminal = false ∨ ((item.get "id").any fun id =>
          !((terminal.get "id").any fun other => other.equal id)) = true then .error invalid
      else do
        let restored ← retainCompletedReasoning item terminal
        .ok (output.set index restored)

def retainCompletedReasoningItems (completed : List (Option Nat × Json)) (output : List Json) :
    Except String (List Json) := completed.foldlM retainItem output

end ZenithRelay.Protocol.ResponseSnapshots
