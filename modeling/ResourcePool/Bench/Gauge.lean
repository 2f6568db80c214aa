/-!
How many uses go on at once, and the most there ever were.
-/

namespace ResourcePool.Bench

structure Gauge where
  current : Nat := 0
  peak : Nat := 0
  deriving DecidableEq

namespace Gauge

def enter (g : Gauge) : Gauge where
  current := g.current + 1
  peak := max g.peak (g.current + 1)

def leave (g : Gauge) : Gauge :=
  { g with current := g.current - 1 }

end Gauge
end ResourcePool.Bench
