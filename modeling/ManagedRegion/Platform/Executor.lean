import ManagedRegion.Debouncer.Basic

/-!
# Executor: the timer that the program runs on

Debouncers and services leave open how long a timer lets a task sleep (`Timer`). The executor of the
program lets it sleep as long as it asks to, but not longer than thirty years.
-/

namespace ManagedRegion.Executor

/-- The longest sleep in milliseconds: thirty years of 365 days. -/
def longestSleep : Nat := 30 * 365 * 86400000

/-- The timer of the executor cuts a longer delay to the longest sleep. -/
instance timer : Timer where
  kept delay := min delay longestSleep
  kept_le delay := Nat.min_le_left delay longestSleep

/-- A delay up to the longest sleep is kept as it is. -/
theorem kept_of_le {delay : Nat} (h : delay ≤ longestSleep) : Timer.kept delay = delay :=
  Nat.min_eq_left h

/-- Of a longer delay the longest sleep is kept. -/
theorem kept_of_lt {delay : Nat} (h : longestSleep < delay) : Timer.kept delay = longestSleep :=
  Nat.min_eq_right (Nat.le_of_lt h)

end ManagedRegion.Executor
