import Courier.Timestamp.Calendar

/-!
# Timestamps

A timestamp is a second of Coordinated Universal Time and a number of nanoseconds within it. A leap
second is the second before it with a thousand million nanoseconds or more. Leap seconds come at the
end of a minute, but every second may have one.

## Main definitions

* `Timestamp`: a point in time between the years -262143 and 262142.
* `Timestamp.epoch`: the beginning of 1970.
* `Timestamp.ofUnix?`: the timestamp of a number of seconds since 1970 and nanoseconds.
-/

namespace Courier

/-- A point in time: seconds since 1970-01-01T00:00:00Z, without leap seconds, and nanoseconds. -/
structure Timestamp where
  seconds : Int
  nanos : Nat
  /-- The year lies between -262143 and 262142. -/
  seconds_ge : -8334601228800 ≤ seconds := by decide
  seconds_le : seconds ≤ 8210266876799 := by decide
  nanos_lt : nanos < 2000000000 := by decide
  deriving DecidableEq

namespace Timestamp

/-- The beginning of 1970. -/
def epoch : Timestamp where
  seconds := 0
  nanos := 0

instance : Inhabited Timestamp :=
  ⟨epoch⟩

/-- The timestamp `nanos` nanoseconds into the second number `seconds`. -/
def ofUnix? (seconds : Int) (nanos : Nat) : Option Timestamp :=
  if h : -8334601228800 ≤ seconds ∧ seconds ≤ 8210266876799 ∧ nanos < 2000000000 then
    some ⟨seconds, nanos, h.1, h.2.1, h.2.2⟩
  else none

/-- The nanoseconds from `t` to `u`; a leap second counts as one second. -/
def nanosUntil (t u : Timestamp) : Int :=
  (u.seconds - t.seconds) * 1000000000 + (u.nanos - t.nanos)

end Timestamp

end Courier
