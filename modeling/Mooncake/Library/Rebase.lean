import Mathlib.Data.Int.ModEq

/-!
# Deadlines that travel as remaining times

A deadline is sent as the whole number of units that remain, and the receiver
adds them to its own reading of the clock.  One trip moves the deadline by the time
the trip takes, less what rounding drops; over a sequence of trips both add up.
-/

namespace Mooncake.Library.Rebase

structure Trip where
  sent : Int
  received : Int
  deriving DecidableEq, Repr

def rebase (unit deadline : Int) (trip : Trip) : Int :=
  trip.received + unit * ((deadline - trip.sent) / unit)

def rebaseAll (unit deadline : Int) (trips : List Trip) : Int :=
  trips.foldl (rebase unit) deadline

def transit : List Trip → Int
  | [] => 0
  | trip :: rest => trip.received - trip.sent + transit rest

/-- What rounding drops: for each trip the part of a unit by which its start misses a
whole number of units before `anchor`, or before the arrival of the trip before it. -/
def rounding (unit anchor : Int) : List Trip → Int
  | [] => 0
  | trip :: rest => (anchor - trip.sent) % unit + rounding unit trip.received rest

variable {unit : Int}

variable (deadline : Int) (trip : Trip) (trips : List Trip)

theorem rebase_eq :
    rebase unit deadline trip =
      deadline + (trip.received - trip.sent) - (deadline - trip.sent) % unit := by
  have split := Int.mul_ediv_add_emod (deadline - trip.sent) unit
  unfold rebase
  omega

/-- A deadline that has travelled lies a whole number of units after its arrival. -/
theorem rebase_modEq :
    rebase unit deadline trip ≡ trip.received [ZMOD unit] := by
  simp [rebase, Int.ModEq]

theorem rounding_congr {first second : Int} (same : first ≡ second [ZMOD unit])
    (trips : List Trip) : rounding unit first trips = rounding unit second trips := by
  cases trips with
  | nil => rfl
  | cons trip rest =>
    have shifted : (first - trip.sent) % unit = (second - trip.sent) % unit :=
      same.sub_right trip.sent
    simp only [rounding, shifted]

theorem rebaseAll_eq :
    rebaseAll unit deadline trips = deadline + transit trips - rounding unit deadline trips := by
  induction trips generalizing deadline with
  | nil => simp [rebaseAll, transit, rounding]
  | cons trip rest ih =>
    have later := ih (rebase unit deadline trip)
    rw [rounding_congr (rebase_modEq deadline trip), rebase_eq] at later
    simp only [rebaseAll, List.foldl_cons, transit, rounding, rebase_eq] at later ⊢
    omega

theorem rebaseAll_le_iff :
    rebaseAll unit deadline trips ≤ deadline ↔ transit trips ≤ rounding unit deadline trips := by
  rw [rebaseAll_eq]
  omega

/-- The least that rounding drops, for a deadline a whole number of units after the start. -/
def leastRounding (unit : Int) (trips : List Trip) : Int :=
  match trips with
  | [] => 0
  | trip :: _ => rounding unit trip.sent trips

theorem leastRounding_le (positive : 0 < unit) {deadline : Int} {trips : List Trip} :
    leastRounding unit trips ≤ rounding unit deadline trips := by
  cases trips with
  | nil => exact le_rfl
  | cons trip rest =>
    have dropped := Int.emod_nonneg (deadline - trip.sent) positive.ne'
    simp only [leastRounding, rounding, sub_self, Int.zero_emod]
    omega

end Mooncake.Library.Rebase
