/-!
# Poll policies

How long to wait before a step in flight is advanced again. The first wait is none at all; later
ones grow from an interval by a factor, up to a limit.

* `PollPolicy.baseDelay`: the wait before an attempt. `PollPolicy.delayFor`: the same with a share
  of chance in it.
* `nanosOfSeconds`: seconds to the nearest nanosecond, a half going to the even one.
-/

namespace Rollout

/-- How long to wait between attempts. Durations are in nanoseconds. -/
structure PollPolicy where
  /-- The first wait that is not none. -/
  interval : Nat
  /-- The longest wait. -/
  maxInterval : Nat
  /-- By what each wait is longer than the one before; less than one counts as one. -/
  multiplier : Float
  /-- Add up to a tenth by chance, so that steps do not poll in lockstep. -/
  jitter : Bool

/-- The nanoseconds of a second. -/
def nanosPerSecond : Nat := 1000000000

/-- A duration in seconds: the whole seconds, and the rest as a fraction. -/
def secondsOfNanos (n : Nat) : Float :=
  Float.ofNat (n / nanosPerSecond) + Float.ofNat (n % nanosPerSecond) / Float.ofNat nanosPerSecond

/-- The quotient of two natural numbers, rounded to the nearest one, a half to the even one. -/
def divideToEven (a b : Nat) : Nat :=
  let q := a / b
  let twice := 2 * (a % b)
  if twice < b then q else if b < twice then q + 1 else q + q % 2

/-- The mantissa and the exponent of two of a float that is not negative. -/
def mantissaAndExponent (x : Float) : Nat × Int :=
  let bits := x.toBits.toNat
  let exponent : Nat := (bits >>> 52) % 2048
  let fraction : Nat := bits % (1 <<< 52)
  if exponent = 0 then (fraction, -1074) else (fraction + (1 <<< 52), (exponent : Int) - 1075)

/-- Seconds in nanoseconds, to the nearest one, a half to the even one. -/
def nanosOfSeconds (x : Float) : Nat :=
  match mantissaAndExponent x with
  | (m, .ofNat e) => (m <<< e) * nanosPerSecond
  | (m, .negSucc e) => divideToEven (m * nanosPerSecond) (1 <<< (e + 1))

/-- The largest power that is taken: the largest integer of 32 bits with a sign. -/
def largestPower : Nat := 2147483647

/-- A power by repeated squaring. -/
def powerBySquaring (base : Float) (n : Nat) : Float := go 1 base n
where
  /-- The product of `acc` and a power. -/
  go (acc base : Float) (n : Nat) : Float :=
    let acc := if n % 2 = 1 then acc * base else acc
    if _h : n / 2 = 0 then acc else go acc (base * base) (n / 2)
  termination_by n
  decreasing_by omega

namespace PollPolicy

/-- The same wait every time. -/
def fixed (interval : Nat) : PollPolicy := ⟨interval, interval, 1.0, false⟩

/-- A second at first, each wait half as long again, up to ten seconds. -/
def standard : PollPolicy := ⟨nanosPerSecond, 10 * nanosPerSecond, 1.5, true⟩

/-- The multiplier, if it is at least one and not undefined; else one. -/
def growth (p : PollPolicy) : Float := if 1.0 < p.multiplier then p.multiplier else 1.0

/-- The wait before an attempt, in nanoseconds. -/
def baseDelay (p : PollPolicy) (attempt : Nat) : Nat :=
  if attempt = 0 then 0
  else
    let seconds :=
      secondsOfNanos p.interval * powerBySquaring p.growth (min (attempt - 1) largestPower)
    if seconds.isFinite && seconds < secondsOfNanos p.maxInterval then
      min (nanosOfSeconds seconds) p.maxInterval
    else p.maxInterval

/-- The wait before an attempt, made longer by a tenth of the share `chance`. -/
def delayFor (p : PollPolicy) (attempt : Nat) (chance : Float) : Nat :=
  let base := p.baseDelay attempt
  if p.jitter then nanosOfSeconds (secondsOfNanos base * (1.0 + chance * 0.1)) else base

end PollPolicy

end Rollout
