import ManagedRegion.Service.State

/-!
# Watchers: who asks for the latest inventory

A watcher remembers how many decode passes it has seen, so that it can tell whether the latest
inventory is a new one.
-/

namespace ManagedRegion

/-- Someone who asks for the latest inventory from time to time. -/
structure Watcher where
  /-- The number of decode passes that it has seen. -/
  seen : Nat

namespace Watcher

/-- A watcher that has seen nothing. -/
def create : Watcher := ⟨0⟩

/-- Whether a decode pass has run that the watcher has not seen, and the watcher after that. -/
def look (w : Watcher) (s : Service) : Bool × Watcher :=
  (w.seen < s.decodes, ⟨s.decodes⟩)

end Watcher

end ManagedRegion
