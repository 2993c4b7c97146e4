import Mathlib.Tactic

/-!
# Traced computations

A computation that records an event for everything it does that could go wrong
and may stop at a fault.  The events recorded before the fault are kept, so a
statement about the trace also covers the computations that do not return.
-/

namespace TwitterLike.Traced

structure Recorded (Event Fault α : Type) where
  trace : List Event
  outcome : Except Fault α

variable {Event Fault α β : Type}

def record (event : Event) (outcome : Except Fault α) :
    Recorded Event Fault α :=
  ⟨[event], outcome⟩

/-- Continue with `next` unless the computation has stopped. -/
def andThen (first : Recorded Event Fault α)
    (next : α → Recorded Event Fault β) : Recorded Event Fault β :=
  match first.outcome with
  | .error fault => ⟨first.trace, .error fault⟩
  | .ok value =>
      ⟨first.trace ++ (next value).trace, (next value).outcome⟩

instance : Monad (Recorded Event Fault) where
  pure value := ⟨[], .ok value⟩
  bind := andThen

/-- Every recorded event satisfies `Safe`. -/
def AllSafe (Safe : Event → Prop) (run : Recorded Event Fault α) : Prop :=
  ∀ event ∈ run.trace, Safe event

@[simp]
theorem record_ok_bind (event : Event) (value : α)
    (next : α → Recorded Event Fault β) :
    record event (.ok value) >>= next =
      ⟨event :: (next value).trace, (next value).outcome⟩ := rfl

@[simp]
theorem record_error_bind (event : Event) (fault : Fault)
    (next : α → Recorded Event Fault β) :
    record event (.error fault) >>= next = ⟨[event], .error fault⟩ := rfl

end TwitterLike.Traced
