import ZenithRelay.Foundations.Integers

/-!
# Token prices

One published quote: micro-USD per million tokens of each kind, the schedules of the
service tiers, and the rates that long prompts overlay on them.
-/

set_option autoImplicit false

namespace ZenithRelay.Pricing

structure TokenRateSet where
  input : Option Nat
  cacheRead : Option Nat
  cacheWrite5m : Option Nat
  cacheWrite1h : Option Nat
  cacheWrite : Option Nat
  output : Option Nat
  deriving DecidableEq, Repr

namespace TokenRateSet

def EMPTY : TokenRateSet := ⟨none, none, none, none, none, none⟩

def isEmpty (rates : TokenRateSet) : Bool :=
  rates.input.isNone && rates.cacheRead.isNone && rates.cacheWrite5m.isNone &&
    rates.cacheWrite1h.isNone && rates.cacheWrite.isNone && rates.output.isNone

def overlay (rates above : TokenRateSet) : TokenRateSet where
  input := above.input.or rates.input
  cacheRead := above.cacheRead.or rates.cacheRead
  cacheWrite5m := above.cacheWrite5m.or rates.cacheWrite5m
  cacheWrite1h := above.cacheWrite1h.or rates.cacheWrite1h
  cacheWrite := above.cacheWrite.or rates.cacheWrite
  output := above.output.or rates.output

end TokenRateSet

structure LongContextRates where
  standard : TokenRateSet
  flex : TokenRateSet
  priority : TokenRateSet
  ultrafast : TokenRateSet
  deriving DecidableEq, Repr

structure TokenPrice where
  input : Nat
  cacheRead : Option Nat
  cacheWrite5m : Option Nat
  cacheWrite1h : Option Nat
  cacheWrite : Option Nat
  output : Nat
  flex : TokenRateSet
  priority : TokenRateSet
  ultrafast : TokenRateSet
  above100k : LongContextRates
  above128k : LongContextRates
  above200k : LongContextRates
  above272k : LongContextRates
  above512k : LongContextRates
  deriving DecidableEq, Repr

/-- `TokenPrice::context_rates`: the thresholds in ascending order. -/
def TokenPrice.contextRates (quote : TokenPrice) : List (Nat × LongContextRates) :=
  [(100000, quote.above100k), (128000, quote.above128k), (200000, quote.above200k),
    (272000, quote.above272k), (512000, quote.above512k)]

end ZenithRelay.Pricing
