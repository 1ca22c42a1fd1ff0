import ZenithRelay.Foundations.JsonObjects

/-!
# Usage snapshots of a stream

Usage reports are partial and cumulative. A snapshot keeps the last value of every
field; a total is dropped once the counters it belongs to have changed.
-/

set_option autoImplicit false

namespace ZenithRelay.Protocol.Adapter.Stream

/-- The counters whose change makes an earlier total stale. -/
def countFields : List String :=
  ["input_tokens", "prompt_tokens", "output_tokens", "completion_tokens",
    "cache_read_input_tokens", "cache_creation_input_tokens", "promptTokenCount",
    "candidatesTokenCount", "thoughtsTokenCount"]

def totalFields : List String := ["total_tokens", "totalTokenCount"]

/-- The fields of a snapshot; anything but an object starts as an empty one. -/
def objectFields (snapshot : Json) : List (String × Json) := snapshot.asObject.getD []

def countsChanged (previousFields nextFields : List (String × Json)) : Bool :=
  countFields.any fun field =>
    (Json.field nextFields field).any fun value =>
      value.asU64.isSome && !((Json.field previousFields field).any fun previous =>
        previous.equal value)

/-- A prior total belongs to the prior counters. -/
def dropStaleTotals (previousFields nextFields : List (String × Json)) : List (String × Json) :=
  if countsChanged previousFields nextFields = true then
    totalFields.foldl (fun previousFields field =>
      if ((Json.field nextFields field).bind (·.asU64)).isNone then
        Json.remove previousFields field
      else previousFields) previousFields
  else previousFields

mutual

def mergeUsageFields (snapshot : Json) : Json → Json
  | .object nextFields =>
    .object (mergeEntries (dropStaleTotals (objectFields snapshot) nextFields) nextFields)
  | _ => snapshot

def mergeEntries (previousFields : List (String × Json)) :
    List (String × Json) → List (String × Json)
  | [] => previousFields
  | entry :: rest => mergeEntries (mergeEntry previousFields entry) rest

/-- An unavailable counter does not erase the one that was reported before. -/
def mergeEntry (previousFields : List (String × Json)) :
    String × Json → List (String × Json)
  | (field, value) =>
    match value with
    | .null => previousFields
    | .object _ =>
      Json.insert previousFields field
        (mergeUsageFields ((Json.field previousFields field).getD (.object [])) value)
    | _ => Json.insert previousFields field value

end

def mergeUsage (usageSnapshot : Option Json) (nextUsage : Json) : Option Json :=
  if nextUsage.isObject = true then
    some (mergeUsageFields (usageSnapshot.getD (.object [])) nextUsage)
  else usageSnapshot

end ZenithRelay.Protocol.Adapter.Stream
