/-!
Lengths of time in seconds and nanoseconds, and their written form.
-/

namespace ResourcePool

structure Duration where
  seconds : Nat
  nanos : Nat
  nanos_lt : nanos < 1000000000
  deriving DecidableEq

namespace Duration

/-- Nanoseconds beyond a second count as seconds. -/
def ofParts (seconds nanos : Nat) : Duration where
  seconds := seconds + nanos / 1000000000
  nanos := nanos % 1000000000
  nanos_lt := Nat.mod_lt _ (by decide)

def ofSeconds (seconds : Nat) : Duration where
  seconds := seconds
  nanos := 0
  nanos_lt := by decide

def isZero (d : Duration) : Bool :=
  d.seconds == 0 && d.nanos == 0

def totalNanos (d : Duration) : Nat :=
  d.seconds * 1000000000 + d.nanos

/-- Whole milliseconds, a started one counted as full. -/
def ceilMillis (d : Duration) : Nat :=
  (d.totalNanos + 999999) / 1000000

/-- A clock can count up to the end of the span. -/
def fitsClock (d : Duration) : Bool :=
  d.seconds < 0x8000000000000000

/-- The digits of `n` in `width` places, without the zeros at the end. -/
def fractionDigits (width n : Nat) : List Char :=
  let digits := Nat.toDigits 10 n
  let padded := List.replicate (width - digits.length) '0' ++ digits
  (padded.reverse.dropWhile (· == '0')).reverse

/-- A whole part and a fraction of `width` places; a fraction of zero leaves no point. -/
def decimal (width whole fraction : Nat) : String :=
  match fractionDigits width fraction with
  | [] => toString whole
  | digits => toString whole ++ "." ++ String.ofList digits

def text (d : Duration) : String :=
  if 0 < d.seconds then decimal 9 d.seconds d.nanos ++ "s"
  else if 1000000 ≤ d.nanos then decimal 6 (d.nanos / 1000000) (d.nanos % 1000000) ++ "ms"
  else if 1000 ≤ d.nanos then decimal 3 (d.nanos / 1000) (d.nanos % 1000) ++ "µs"
  else toString d.nanos ++ "ns"

theorem isZero_iff (d : Duration) : d.isZero = true ↔ d.totalNanos = 0 := by
  simp only [isZero, totalNanos, Bool.and_eq_true, beq_iff_eq]
  omega

theorem ceilMillis_le_iff (d : Duration) (n : Nat) :
    d.ceilMillis ≤ n ↔ d.totalNanos ≤ n * 1000000 := by
  unfold ceilMillis
  omega

end Duration
end ResourcePool
