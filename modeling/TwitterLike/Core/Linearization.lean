import TwitterLike.Core.Transition

/-!
# Linearisation points

A concurrent object whose steps may commit operations, and the object that
handles one operation at a time.  The operations are logged in the order in which
they are committed, so an operation that has been answered before another one is
invoked stands before it in the log.
-/

namespace TwitterLike.Linearization

open TwitterLike.Transition

variable {State Label Object Operation Request : Type*}
variable {step : State → Label → Option State}
  {operate : Object → Operation → Option Object}
  {commits : State → Label → List Operation}
variable {state middle final : State} {labels front back : List Label}

/-- The operations that the steps of a run commit, in order. -/
def log (step : State → Label → Option State)
    (commits : State → Label → List Operation) : State → List Label → List Operation
  | _, [] => []
  | state, label :: labels =>
      match step state label with
      | some next => commits state label ++ log step commits next labels
      | none => []

theorem log_cons {next : State} {label : Label} (hstep : step state label = some next)
    (labels : List Label) :
    log step commits state (label :: labels) =
      commits state label ++ log step commits next labels := by
  rw [log, hstep]

/-- What is committed later is logged later. -/
theorem log_append (hfront : exec step state front = some middle) :
    log step commits state (front ++ back) =
      log step commits state front ++ log step commits middle back := by
  induction front generalizing state with
  | nil =>
      cases hfront
      rfl
  | cons label labels ih =>
      obtain ⟨next, hstep, hfront⟩ := exec_cons_iff.1 hfront
      rw [List.cons_append, log_cons hstep, log_cons hstep, ih hfront,
        List.append_assoc]

/-- A simulation whose steps take the object past what they commit takes it past
the log. -/
theorem exec_log {Simulates : State → Object → Prop}
    (hsimulates : ∀ state object label next, Simulates state object →
      step state label = some next →
      ∃ after, exec operate object (commits state label) = some after ∧
        Simulates next after)
    {object : Object} (hstart : Simulates state object)
    (hrun : exec step state labels = some final) :
    ∃ after, exec operate object (log step commits state labels) = some after ∧
      Simulates final after := by
  induction labels generalizing state object with
  | nil =>
      cases hrun
      exact ⟨object, rfl, hstart⟩
  | cons label labels ih =>
      obtain ⟨next, hstep, hrun⟩ := exec_cons_iff.1 hrun
      obtain ⟨between, hcommits, hnext⟩ :=
        hsimulates state object label next hstart hstep
      obtain ⟨after, hlog, hfinal⟩ := ih hnext hrun
      refine ⟨after, ?_, hfinal⟩
      rw [log_cons hstep]
      exact exec_append_iff.2 ⟨between, hcommits, hlog⟩

/-- Every request that arrives is either served by a logged operation or still
pending, and they are served in the order of their arrival. -/
theorem log_balance {pending : State → List Request}
    {arrives : Label → List Request} {serves : Operation → List Request}
    (hbalance : ∀ state label next, step state label = some next →
      pending state ++ arrives label =
        (commits state label).flatMap serves ++ pending next)
    (hrun : exec step state labels = some final) :
    pending state ++ labels.flatMap arrives =
      (log step commits state labels).flatMap serves ++ pending final := by
  induction labels generalizing state with
  | nil =>
      cases hrun
      exact List.append_nil _
  | cons label labels ih =>
      obtain ⟨next, hstep, hrun⟩ := exec_cons_iff.1 hrun
      rw [log_cons hstep, List.flatMap_cons, List.flatMap_append, List.append_assoc,
        ← ih hrun, ← List.append_assoc, ← List.append_assoc,
        hbalance state label next hstep]

end TwitterLike.Linearization
