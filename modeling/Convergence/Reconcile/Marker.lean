import Convergence.Lifecycle
/-!
# Markers

A marker says that an attempt to bring an integration to some state is under way.
-/

namespace Convergence

/-- An attempt under way: an integration on its way to a state. -/
structure Marker where
  desired : State
  id : String
deriving DecidableEq, Repr

namespace Marker

/-- The text of a marker. -/
def text (m : Marker) : String := m.desired.name ++ ":" ++ m.id

/-- The order of a listing: by id, then by the order of the states. -/
def inOrder (m n : Marker) : Bool :=
  decide (m.id < n.id) || (m.id == n.id && decide (m.desired.rank ≤ n.desired.rank))

end Marker

/-- Markers, each held once. -/
structure Markers where
  held : List Marker := []
  nodup : held.Nodup := by simp
deriving DecidableEq, Repr

namespace Markers

/-- No marker is held. -/
def none : Markers := {}

/-- The marker is held. -/
def contains (s : Markers) (m : Marker) : Bool := s.held.contains m

/-- Some marker of the integration is held. -/
def containsId (s : Markers) (id : String) : Bool := s.held.any (fun m => m.id == id)

/-- Holds a marker; nothing changes if it is held already. -/
def insert (s : Markers) (m : Marker) : Markers :=
  if h : m ∈ s.held then s
  else ⟨s.held ++ [m], by
    simp [List.nodup_append, s.nodup]
    exact fun a ha he => h (he ▸ ha)⟩

/-- Drops a marker. -/
def erase (s : Markers) (m : Marker) : Markers := ⟨s.held.filter (· ≠ m), s.nodup.filter _⟩

/-- Drops every marker of an integration. -/
def eraseId (s : Markers) (id : String) : Markers :=
  ⟨s.held.filter (fun m => m.id ≠ id), s.nodup.filter _⟩

/-- The number of markers. -/
def size (s : Markers) : Nat := s.held.length

/-- The markers, by id and then by state. -/
def listing (s : Markers) : List Marker := s.held.mergeSort Marker.inOrder

end Markers

end Convergence
