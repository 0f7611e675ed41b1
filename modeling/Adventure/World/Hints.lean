import Adventure.Wire.Codec

/-!
# Hint progress

Hints are started, may be paused, and are completed for good.  Active hints keep the order they
were started in.
-/

namespace Adventure

open Wire

/-- Which hints are active, paused and completed. -/
structure Hints where
  active : List Int32
  paused : SortedSet Int32
  completed : SortedSet Int32

namespace Hints

def none : Hints := ⟨[], .empty, .empty⟩

instance : Inhabited Hints := ⟨none⟩

/-- Starts a hint, or goes on with a paused one.  A completed hint does not start again. -/
def start (h : Hints) (id : Int32) : Hints :=
  let paused := h.paused.erase id
  if h.completed.contains id || h.active.contains id then { h with paused := paused }
  else { h with paused := paused, active := h.active ++ [id] }

/-- Pauses an active hint. -/
def pause (h : Hints) (id : Int32) : Hints :=
  if h.active.contains id then { h with paused := h.paused.insert id () } else h

def complete (h : Hints) (id : Int32) : Hints where
  active := h.active.filter (· ≠ id)
  paused := h.paused.erase id
  completed := h.completed.insert id ()

/-- The active hints that are not paused, in the order they were started. -/
def running (h : Hints) : List Int32 := h.active.filter fun id => !h.paused.contains id

def activeCount (h : Hints) : Nat := h.running.length

/-- The hint to show. -/
def current? (h : Hints) : Option Int32 := h.running.head?

def isCompleted (h : Hints) (id : Int32) : Bool := h.completed.contains id

end Hints

instance : Wire Hints where
  encode h := .record
    [("active", encode h.active), ("paused", encodeSet h.paused),
      ("completed", encodeSet h.completed)]
  decode? m v := do
    let f ← Fields.read? m ["active", "paused", "completed"] v
    return {
      active := ← f.withDefault m "active" []
      paused := ← f.orElse (decodeSet? m) "paused" .empty
      completed := ← f.orElse (decodeSet? m) "completed" .empty }

end Adventure
