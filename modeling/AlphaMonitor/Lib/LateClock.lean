import Mathlib.Algebra.Order.Group.Int
import Mathlib.Order.Lattice

/-!
# A clock that is driven by the times it sees

The mark is the latest time seen.  What lies a buffer behind the mark is closed, and stays so:
one time that is seen too early closes everything up to it.

Nothing here mentions the monitor.
-/

namespace AlphaMonitor.Lib

/-- The latest time seen, and the time up to which everything is closed. -/
structure LateClock where
  (mark closed : ℤ)

namespace LateClock

variable {buffer : ℤ} {start clock : LateClock} {time bound : ℤ}

/-- A time is seen, and what lies far enough behind is closed. -/
def see (buffer : ℤ) (clock : LateClock) (time : ℤ) : LateClock where
  mark := max clock.mark time
  closed := max clock.closed (max clock.mark time - buffer)

/-- Nothing that lies far enough behind is open. -/
def Settled (buffer : ℤ) (clock : LateClock) : Prop := clock.mark - buffer ≤ clock.closed

theorem settled_see (buffer : ℤ) (clock : LateClock) (time : ℤ) :
    (clock.see buffer time).Settled buffer := le_max_right _ _

/-- A settled clock closes nothing that it sees in time. -/
theorem closed_see_lt (h : clock.Settled buffer) (hbuffer : 0 < buffer)
    (htime : clock.closed < time) : (clock.see buffer time).closed < time := by
  have hmark : clock.mark - buffer ≤ clock.closed := h
  show max clock.closed (max clock.mark time - buffer) < time
  omega

/-- What the clock may be after times up to the bound. -/
structure Since (buffer : ℤ) (start : LateClock) (bound : ℤ) (clock : LateClock) : Prop where
  settled : clock.Settled buffer
  mark : clock.mark ≤ max start.mark bound
  kept : start.closed ≤ clock.closed
  closed : clock.closed ≤ max start.closed (bound - buffer)

theorem Since.refl (hstart : start.Settled buffer) (bound : ℤ) :
    start.Since buffer bound start where
  settled := hstart
  mark := le_max_left _ _
  kept := le_refl _
  closed := le_max_left _ _

theorem Since.see (h : start.Since buffer bound clock) (hstart : start.Settled buffer)
    (htime : time ≤ bound) : start.Since buffer bound (clock.see buffer time) where
  settled := settled_see buffer clock time
  mark := max_le h.mark (htime.trans (le_max_right _ _))
  kept := h.kept.trans (le_max_left _ _)
  closed := by
    have hmark := h.mark
    have hclosed := h.closed
    have hsettled : start.mark - buffer ≤ start.closed := hstart
    show max clock.closed (max clock.mark time - buffer) ≤ _
    omega

/-- A time that lies no buffer behind the bound is closed only if it was closed at the start. -/
theorem Since.closed_lt (h : start.Since buffer bound clock) (hstart : start.closed < time)
    (hbound : bound < time + buffer) : clock.closed < time := by
  have hclosed := h.closed
  omega

end LateClock

end AlphaMonitor.Lib
