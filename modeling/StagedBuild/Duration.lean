import StagedBuild.Number.Binary64

/-!
# Durations

A duration is shown in seconds with two places below a minute and in minutes with one place from
then on.  Seconds, nanoseconds and their sum are numbers of the 64-bit binary format, rounded at
every step.
-/

namespace StagedBuild

structure Duration where
  seconds : Nat
  /-- Nanoseconds below one second. -/
  nanoseconds : Nat
  deriving DecidableEq, Repr

namespace Duration

open Number

/-- The greatest count of milliseconds that is kept. -/
def millisecondLimit : Nat := 18446744073709551615

/-- Whole milliseconds, up to the greatest count that is kept. -/
def milliseconds (duration : Duration) : Nat :=
  min (duration.seconds * 1000 + duration.nanoseconds / 1000000) millisecondLimit

def ofMilliseconds (count : Nat) : Duration :=
  ⟨count / 1000, count % 1000 * 1000000⟩

def inSeconds (duration : Duration) : Binary64 :=
  (Binary64.ofRatio duration.seconds 1).add
    ((Binary64.ofRatio duration.nanoseconds 1).divNat 1000000000)

def text (duration : Duration) : String :=
  let seconds := duration.inSeconds
  if seconds.units < 60 * Binary64.scale then seconds.fixed 2 ++ "s"
  else (seconds.divNat 60).fixed 1 ++ "m"

end Duration
end StagedBuild
