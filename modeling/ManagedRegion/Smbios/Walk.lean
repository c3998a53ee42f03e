import ManagedRegion.Smbios.Structure

/-!
# Walk: every structure of a buffer

The walk steps from structure to structure until none begins where the last one ended. It has no
limit, since each step goes forward. The searches and listings are described by it.
-/

namespace ManagedRegion.Smbios

/-- Every structure from `start` on, in table order. -/
def walkFrom (buf : Bytes) (start : Nat) : List Structure :=
  match structureAt? buf start with
  | none => []
  | some s =>
    match _h : next? buf start with
    | none => [s]
    | some after => s :: walkFrom buf after
termination_by buf.size - start
decreasing_by exact sub_lt_of_next? (by assumption)

/-- Every structure of the buffer, in table order. -/
def walk (buf : Bytes) : List Structure :=
  walkFrom buf 0

end ManagedRegion.Smbios
