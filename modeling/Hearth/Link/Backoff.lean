import Hearth.Span

/-!
# Waiting longer after each failure

After the `n`-th failure in a row an attempt is put off by `initial · factor ^ (n - 1)` seconds, at
most `max`, spread by a random part. After `maxRetries` failures the attempts end.
-/

namespace Hearth.Link

/-- How attempts are put off; times are in seconds. -/
structure BackoffConfig where
  initial : Float
  factor : Float
  max : Float
  /-- Relative spread: `0.1` stands for ten percent to either side. -/
  jitter : Float
  maxRetries : Option UInt32
  deriving Repr, Inhabited

/-- The settings used when nothing else is configured; the factor is Euler's number. -/
def BackoffConfig.standard : BackoffConfig where
  initial := 1.0
  factor := Float.ofBits 0x4005bf0a8b145769
  max := 3600.0
  jitter := Float.ofScientific 11962656492 true 11
  maxRetries := none

/-- Failures in a row. -/
structure Backoff where
  config : BackoffConfig
  failures : UInt32
  deriving Repr, Inhabited

/-- The outcome of a failure. -/
inductive Delay where
  /-- The next attempt follows after a span of time. -/
  | after (span : Span)
  /-- The next attempt follows after a span around the given one, spread at random. -/
  | around (span : Span)
  /-- The attempts end. -/
  | exhausted
  /-- The delay is longer than any span of time. -/
  | tooLong
  deriving Repr, DecidableEq, Inhabited

namespace Backoff

/-- No failure yet. -/
def start (config : BackoffConfig) : Backoff := ⟨config, 0⟩

/-- Have the attempts ended? -/
def isExhausted (b : Backoff) : Bool :=
  match b.config.maxRetries with
  | some most => most ≤ b.failures
  | none => false

/-- A power by repeated squaring: the factors are multiplied in the order of the binary digits of
the exponent, lowest first. `acc` is the product so far. -/
def power (acc base : Float) (exponent : Nat) : Float :=
  let acc := if exponent % 2 == 1 then acc * base else acc
  if h : exponent / 2 = 0 then acc else power acc (base * base) (exponent / 2)
termination_by exponent
decreasing_by omega

/-- The delay in seconds after `failures` earlier failures, before it is spread. The smaller of two
numbers is the other one if one of them is no number. -/
def seconds (config : BackoffConfig) (failures : UInt32) : Float :=
  let exponent := min failures.toNat Int32.maxValue.toNatClampNeg
  let x := config.initial * power 1.0 config.factor exponent
  if x.isNaN then config.max
  else if config.max.isNaN then x
  else if x < config.max then x else config.max

/-- Records a failure. -/
def fail (b : Backoff) : Delay × Backoff :=
  if b.isExhausted then (.exhausted, b)
  else
    let failures := if b.failures == 0xffffffff then b.failures else b.failures + 1
    let x := seconds b.config b.failures
    let x := if 0.0 < x then x else 0.0
    let delay :=
      match Span.ofSeconds? x with
      | none => .tooLong
      | some span => if 0.0 < b.config.jitter then .around span else .after span
    (delay, { b with failures })

/-- Forgets the failures, after a success. -/
def reset (b : Backoff) : Backoff := { b with failures := 0 }

end Backoff

end Hearth.Link
