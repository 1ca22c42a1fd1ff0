import Mathlib

/-!
# Outcomes

A call returns, or it panics and leaves the state as it was at that point.
-/

set_option autoImplicit false

namespace ZenithRelay

inductive Outcome (Result : Type) where
  | returned (result : Result)
  | panicked (message : String)
  deriving DecidableEq, Repr

def Outcome.map {Result Image : Type} (image : Result → Image) : Outcome Result → Outcome Image
  | .returned result => .returned (image result)
  | .panicked message => .panicked message

end ZenithRelay
