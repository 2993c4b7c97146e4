import Mathlib.Tactic

/-!
# Stateful computations that can fail

A computation takes a state and ends with a value or a fault, and in either case
with the state it leaves: a failed computation does not roll back what it has
done.
-/

namespace TwitterLike.Faulting

def Computation (State Fault α : Type) : Type :=
  State → Except Fault α × State

variable {State Fault α β : Type}

def Computation.run (computation : Computation State Fault α) (state : State) :
    Except Fault α × State :=
  computation state

/-- Continue with `next` unless the computation has failed. -/
def andThen (first : Computation State Fault α)
    (next : α → Computation State Fault β) : Computation State Fault β :=
  fun state =>
    match first state with
    | (.ok value, middle) => next value middle
    | (.error fault, middle) => (.error fault, middle)

instance : Monad (Computation State Fault) where
  pure value := fun state => (.ok value, state)
  bind := andThen

def fail (fault : Fault) : Computation State Fault α :=
  fun state => (.error fault, state)

def modify (change : State → State) : Computation State Fault Unit :=
  fun state => (.ok (), change state)

def read (view : State → α) : Computation State Fault α :=
  fun state => (.ok (view state), state)

section Run

variable (state : State)

@[simp]
theorem run_pure (value : α) :
    (pure value : Computation State Fault α).run state = (.ok value, state) := rfl

@[simp]
theorem run_fail (fault : Fault) :
    (fail fault : Computation State Fault α).run state =
      (.error fault, state) := rfl

@[simp]
theorem run_modify (change : State → State) :
    (modify change : Computation State Fault Unit).run state =
      (.ok (), change state) := rfl

@[simp]
theorem run_read (view : State → α) :
    (read view : Computation State Fault α).run state =
      (.ok (view state), state) := rfl

variable {first : Computation State Fault α} {middle : State}

theorem run_bind_of_ok {value : α} (hfirst : first.run state = (.ok value, middle))
    (next : α → Computation State Fault β) :
    (first >>= next).run state = (next value).run middle := by
  change andThen first next state = _
  change first state = _ at hfirst
  rw [andThen, hfirst]
  rfl

theorem run_bind_of_error {fault : Fault}
    (hfirst : first.run state = (.error fault, middle))
    (next : α → Computation State Fault β) :
    (first >>= next).run state = (.error fault, middle) := by
  change andThen first next state = _
  change first state = _ at hfirst
  rw [andThen, hfirst]

@[simp]
theorem run_pure_bind (value : α) (next : α → Computation State Fault β) :
    (pure value >>= next).run state = (next value).run state := rfl

@[simp]
theorem run_modify_bind (change : State → State)
    (next : Unit → Computation State Fault β) :
    (modify change >>= next).run state = (next ()).run (change state) := rfl

@[simp]
theorem run_read_bind (view : State → α) (next : α → Computation State Fault β) :
    (read view >>= next).run state = (next (view state)).run state := rfl

@[simp]
theorem run_fail_bind (fault : Fault) (next : α → Computation State Fault β) :
    ((fail fault : Computation State Fault α) >>= next).run state =
      (.error fault, state) := rfl

/-- A sequence returns exactly when its first part returns and the rest, run
from the state it leaves, does. -/
theorem run_bind_eq_ok_iff {next : α → Computation State Fault β} {value : β}
    {final : State} :
    (first >>= next).run state = (.ok value, final) ↔
      ∃ result between, first.run state = (.ok result, between) ∧
        (next result).run between = (.ok value, final) := by
  constructor
  · intro hrun
    rcases hfirst : first.run state with ⟨fault | result, between⟩
    · rw [run_bind_of_error state hfirst] at hrun
      cases hrun
    · exact ⟨result, between, rfl, (run_bind_of_ok state hfirst next) ▸ hrun⟩
  · rintro ⟨result, between, hfirst, hnext⟩
    rw [run_bind_of_ok state hfirst]
    exact hnext

/-- A sequence fails where its first part fails, or where the rest does. -/
theorem run_bind_eq_error_iff {next : α → Computation State Fault β}
    {fault : Fault} {final : State} :
    (first >>= next).run state = (.error fault, final) ↔
      first.run state = (.error fault, final) ∨
      ∃ result between, first.run state = (.ok result, between) ∧
        (next result).run between = (.error fault, final) := by
  rcases hfirst : first.run state with ⟨failed | result, between⟩
  · rw [run_bind_of_error state hfirst]
    simp
  · rw [run_bind_of_ok state hfirst]
    simp

end Run

/-! ## Invariants of the state -/

/-- The computation keeps the invariant of the state on every way out. -/
def Preserves (Invariant : State → Prop)
    (computation : Computation State Fault α) : Prop :=
  ∀ state, Invariant state → Invariant (computation.run state).2

section Preserves

variable {Invariant : State → Prop}

theorem preserves_pure (value : α) :
    Preserves Invariant (pure value : Computation State Fault α) :=
  fun _ hinvariant => hinvariant

theorem preserves_fail (fault : Fault) :
    Preserves Invariant (fail fault : Computation State Fault α) :=
  fun _ hinvariant => hinvariant

theorem preserves_modify {change : State → State}
    (hchange : ∀ state, Invariant state → Invariant (change state)) :
    Preserves Invariant (modify change : Computation State Fault Unit) :=
  hchange

theorem Preserves.bind {first : Computation State Fault α}
    {next : α → Computation State Fault β} (hfirst : Preserves Invariant first)
    (hnext : ∀ value, Preserves Invariant (next value)) :
    Preserves Invariant (first >>= next) := by
  intro state hinvariant
  have hmiddle := hfirst state hinvariant
  rcases hrun : first.run state with ⟨fault | value, middle⟩
  · rw [run_bind_of_error state hrun]
    rwa [hrun] at hmiddle
  · rw [run_bind_of_ok state hrun]
    rw [hrun] at hmiddle
    exact hnext value middle hmiddle

end Preserves

end TwitterLike.Faulting
