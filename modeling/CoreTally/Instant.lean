/-
  This file defines the logical instants that stored readings
  are stamped with, and the monotonic clock they come from.

  Key definitions include:
    * `Instant`
    * `Clock`
    * `Clock.now`
    * `Instant.next`

  Key theorems include:
    * `Instant.lt_next`
-/

namespace CoreTally

/- A logical instant in nanoseconds, comparable within one run. -/
abbrev Instant :=
  UInt64

namespace Instant

/- The largest instant. -/
def greatest : Nat := 18446744073709551615

/- The instant nearest to a number of nanoseconds. -/
def ofNanos (nanos : Nat) : Instant :=
  UInt64.ofNat (min nanos greatest)

/- The instant directly after another one, the last one staying. -/
def succ (previous : Instant) : Instant :=
  ofNanos (previous.toNat + 1)

/-
  The instant of a reading taken when the clock shows `now`
  and the last reading was stamped `previous`.
-/
def next (now previous : Instant) : Instant :=
  if now < previous.succ then previous.succ else now

theorem toNat_ofNanos (nanos : Nat) :
    (ofNanos nanos).toNat = min nanos greatest := by
  unfold ofNanos
  rw [UInt64.toNat_ofNat_of_lt']
  simp only [greatest, UInt64.size]
  omega

theorem toNat_succ (previous : Instant) :
    previous.succ.toNat = min (previous.toNat + 1) greatest :=
  toNat_ofNanos _

/- The clock reading, or one tick after the last instant. -/
theorem toNat_next (now previous : Instant) :
    (next now previous).toNat =
      max now.toNat (min (previous.toNat + 1) greatest) := by
  unfold next
  split
  · rename_i h
    have := UInt64.lt_iff_toNat_lt.mp h
    rw [toNat_succ] at this ⊢
    omega
  · rename_i h
    have := mt UInt64.lt_iff_toNat_lt.mpr h
    rw [toNat_succ] at this
    omega

/- Until the range is used up, a new instant is a later one. -/
theorem lt_next
    {now previous : Instant}
    (h : previous.toNat < greatest) :
    previous < next now previous := by
  rw [UInt64.lt_iff_toNat_lt, toNat_next]
  omega

end Instant

------------------------------------------------------------
-- Clocks
------------------------------------------------------------

/- The monotonic clock: a reading in seconds and nanoseconds, or none. -/
inductive Clock where
| reading (seconds nanoseconds : Int64)
| failing
deriving DecidableEq, Repr

namespace Clock

/-
  The instant a clock shows. Negative parts count as their
  unsigned 64-bit patterns, and a clock that fails shows 0.
-/
def now : Clock → Instant
| .reading seconds nanoseconds =>
    Instant.ofNanos
      (min (seconds.toUInt64.toNat * 1000000000) Instant.greatest +
        nanoseconds.toUInt64.toNat)
| .failing => 0

end Clock

end CoreTally
