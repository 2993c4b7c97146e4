import Mathlib.Tactic

/-!
# Runs of labelled systems

A system is a partial function from a state and a label to the next state; a run
is a list of labels, in the order in which an arbitrary scheduler picks them.
The rules below take what one step preserves to what whole runs preserve, also
for runs all of whose steps meet a condition.
-/

namespace TwitterLike.Transition

variable {State Label : Type*} {step : State → Label → Option State}

/-- The state after the labels, if each of them is enabled in its turn. -/
def exec (step : State → Label → Option State) :
    State → List Label → Option State
  | state, [] => some state
  | state, label :: labels =>
      (step state label).bind fun next => exec step next labels

@[simp]
theorem exec_nil (state : State) : exec step state [] = some state := rfl

theorem exec_cons_iff {state final : State} {label : Label}
    {labels : List Label} :
    exec step state (label :: labels) = some final ↔
      ∃ next, step state label = some next ∧
        exec step next labels = some final :=
  Option.bind_eq_some_iff

theorem exec_append (state : State) (front back : List Label) :
    exec step state (front ++ back) =
      (exec step state front).bind fun middle => exec step middle back := by
  induction front generalizing state with
  | nil => rfl
  | cons label labels ih =>
      simp only [List.cons_append, exec]
      cases step state label with
      | none => rfl
      | some next => exact ih next

theorem exec_append_iff {state final : State} {front back : List Label} :
    exec step state (front ++ back) = some final ↔
      ∃ middle, exec step state front = some middle ∧
        exec step middle back = some final := by
  rw [exec_append]
  exact Option.bind_eq_some_iff

/-! ## Conditions on runs -/

/-- Every step of the run that is taken satisfies `Allowed` with the state it
is taken in. -/
def Along (step : State → Label → Option State)
    (Allowed : State → Label → Prop) : State → List Label → Prop
  | _, [] => True
  | state, label :: labels =>
      ∀ next, step state label = some next →
        Allowed state label ∧ Along step Allowed next labels

instance Along.decidable (step : State → Label → Option State)
    (Allowed : State → Label → Prop)
    [∀ state label, Decidable (Allowed state label)] :
    ∀ state labels, Decidable (Along step Allowed state labels)
  | _, [] => isTrue trivial
  | state, label :: labels =>
      match hstep : step state label with
      | none => isTrue fun next hnext => by
          rw [hstep] at hnext
          cases hnext
      | some next =>
          have := Along.decidable step Allowed next labels
          decidable_of_iff (Allowed state label ∧ Along step Allowed next labels)
            ⟨fun hallowed other hother => by
              cases hstep.symm.trans hother
              exact hallowed,
            fun halong => halong next hstep⟩

/-- `Holds` is true in every state the run visits. -/
def Throughout (step : State → Label → Option State) (Holds : State → Prop) :
    State → List Label → Prop
  | state, [] => Holds state
  | state, label :: labels =>
      Holds state ∧ ∀ next, step state label = some next →
        Throughout step Holds next labels

/-- Every label of the run, enabled or not, meets `Meets` with the state that it
finds. -/
def Each (step : State → Label → Option State)
    (Meets : State → Label → Prop) : State → List Label → Prop
  | _, [] => True
  | state, label :: labels =>
      Meets state label ∧ ∀ next, step state label = some next →
        Each step Meets next labels

instance Each.decidable (step : State → Label → Option State)
    (Meets : State → Label → Prop)
    [∀ state label, Decidable (Meets state label)] :
    ∀ state labels, Decidable (Each step Meets state labels)
  | _, [] => isTrue trivial
  | state, label :: labels =>
      match hstep : step state label with
      | none =>
          decidable_of_iff (Meets state label) <| by
            simp [Each, hstep]
      | some next =>
          have := Each.decidable step Meets next labels
          decidable_of_iff (Meets state label ∧ Each step Meets next labels) <| by
            simp [Each, hstep]

variable {Allowed : State → Label → Prop} {Holds Invariant : State → Prop}

theorem Throughout.head {state : State} {labels : List Label}
    (hholds : Throughout step Holds state labels) : Holds state := by
  cases labels with
  | nil => exact hholds
  | cons label labels => exact hholds.1

theorem Throughout.final {state final : State} {labels : List Label}
    (hholds : Throughout step Holds state labels)
    (hexec : exec step state labels = some final) : Holds final := by
  induction labels generalizing state with
  | nil =>
      cases hexec
      exact hholds
  | cons label labels ih =>
      obtain ⟨next, hnext, hrest⟩ := exec_cons_iff.1 hexec
      exact ih (hholds.2 next hnext) hrest

theorem throughout_congr {Other : State → Prop}
    (hiff : ∀ state, Holds state ↔ Other state) (state : State)
    (labels : List Label) :
    Throughout step Holds state labels ↔ Throughout step Other state labels := by
  have heq : Holds = Other := funext fun state => propext (hiff state)
  rw [heq]

theorem Along.append {state middle : State} {front back : List Label}
    (halong : Along step Allowed state (front ++ back))
    (hfront : exec step state front = some middle) :
    Along step Allowed state front ∧ Along step Allowed middle back := by
  induction front generalizing state with
  | nil =>
      cases hfront
      exact ⟨trivial, halong⟩
  | cons label labels ih =>
      obtain ⟨next, hnext, hrest⟩ := exec_cons_iff.1 hfront
      refine ⟨fun other hother => ?_, (ih (halong next hnext).2 hrest).2⟩
      cases hnext.symm.trans hother
      exact ⟨(halong next hnext).1, (ih (halong next hnext).2 hrest).1⟩

theorem Along.concat {state middle : State} {front back : List Label}
    (hfront : Along step Allowed state front)
    (hrun : exec step state front = some middle)
    (hback : Along step Allowed middle back) :
    Along step Allowed state (front ++ back) := by
  induction front generalizing state with
  | nil =>
      cases hrun
      exact hback
  | cons label labels ih =>
      obtain ⟨next, hnext, hrest⟩ := exec_cons_iff.1 hrun
      intro other hother
      cases hnext.symm.trans hother
      exact ⟨(hfront next hnext).1, ih (hfront next hnext).2 hrest⟩

theorem Along.imp {Other : State → Label → Prop} {state : State}
    {labels : List Label} (halong : Along step Allowed state labels)
    (himp : ∀ state label, Allowed state label → Other state label) :
    Along step Other state labels := by
  induction labels generalizing state with
  | nil => trivial
  | cons label labels ih =>
      intro next hnext
      obtain ⟨hallowed, hrest⟩ := halong next hnext
      exact ⟨himp state label hallowed, ih hrest⟩

theorem Along.and {Other : State → Label → Prop} {state : State}
    {labels : List Label} (hleft : Along step Allowed state labels)
    (hright : Along step Other state labels) :
    Along step (fun state label => Allowed state label ∧ Other state label)
      state labels := by
  induction labels generalizing state with
  | nil => trivial
  | cons label labels ih =>
      intro next hnext
      obtain ⟨hallowed, hleft⟩ := hleft next hnext
      obtain ⟨hother, hright⟩ := hright next hnext
      exact ⟨⟨hallowed, hother⟩, ih hleft hright⟩

/-- A run that is not allowed has a first step that is not. -/
theorem exists_first_of_not_along {state final : State} {labels : List Label}
    (hnot : ¬ Along step Allowed state labels)
    (hrun : exec step state labels = some final) :
    ∃ front label back middle next, labels = front ++ label :: back ∧
      Along step Allowed state front ∧ exec step state front = some middle ∧
      ¬ Allowed middle label ∧ step middle label = some next ∧
      exec step next back = some final := by
  induction labels generalizing state with
  | nil => exact absurd trivial hnot
  | cons label labels ih =>
      obtain ⟨next, hnext, hrest⟩ := exec_cons_iff.1 hrun
      by_cases hallowed : Allowed state label
      · have hlater : ¬ Along step Allowed next labels := by
          intro hlater
          refine hnot fun other hother => ?_
          cases hnext.symm.trans hother
          exact ⟨hallowed, hlater⟩
        obtain ⟨front, bad, back, middle, broken, rfl, hfront, hexec, hbad⟩ :=
          ih hlater hrest
        refine ⟨label :: front, bad, back, middle, broken, rfl, ?_,
          exec_cons_iff.2 ⟨next, hnext, hexec⟩, hbad⟩
        intro other hother
        cases hnext.symm.trans hother
        exact ⟨hallowed, hfront⟩
      · exact ⟨[], label, labels, state, next, rfl, trivial, rfl, hallowed, hnext,
          hrest⟩

/-- A condition on the labels alone. -/
theorem along_of_forall {Meets : Label → Prop} {labels : List Label}
    (hmeets : ∀ label ∈ labels, Meets label) (state : State) :
    Along step (fun _ label => Meets label) state labels := by
  induction labels generalizing state with
  | nil => trivial
  | cons label labels ih =>
      obtain ⟨hlabel, hlabels⟩ := List.forall_mem_cons.1 hmeets
      exact fun next _ => ⟨hlabel, ih hlabels next⟩

/-! ## Invariants -/

/-- What every allowed step preserves holds after every run of allowed steps. -/
theorem exec_invariant
    (hstep : ∀ state label next, Invariant state → Allowed state label →
      step state label = some next → Invariant next)
    {state final : State} {labels : List Label} (hstart : Invariant state)
    (halong : Along step Allowed state labels)
    (hexec : exec step state labels = some final) : Invariant final := by
  induction labels generalizing state with
  | nil =>
      cases hexec
      exact hstart
  | cons label labels ih =>
      obtain ⟨next, hnext, hrest⟩ := exec_cons_iff.1 hexec
      obtain ⟨hallowed, halong⟩ := halong next hnext
      exact ih (hstep state label next hstart hallowed hnext) halong hrest

/-- A run of allowed steps visits only states that the invariant makes good. -/
theorem throughout_of_along
    (hgood : ∀ state, Invariant state → Holds state)
    (hstep : ∀ state label next, Invariant state → Allowed state label →
      step state label = some next → Invariant next)
    {state : State} {labels : List Label} (hstart : Invariant state)
    (halong : Along step Allowed state labels) :
    Throughout step Holds state labels := by
  induction labels generalizing state with
  | nil => exact hgood state hstart
  | cons label labels ih =>
      refine ⟨hgood state hstart, fun next hnext => ?_⟩
      obtain ⟨hallowed, hrest⟩ := halong next hnext
      exact ih (hstep state label next hstart hallowed hnext) hrest

/-- Two conditions that are the same in every state with the invariant are the
same for a run. -/
theorem each_iff {Meets Other : State → Label → Prop}
    (hstep : ∀ state label next, Invariant state →
      step state label = some next → Invariant next)
    (hiff : ∀ state label, Invariant state →
      (Meets state label ↔ Other state label))
    {state : State} {labels : List Label} (hstart : Invariant state) :
    Each step Meets state labels ↔ Each step Other state labels := by
  induction labels generalizing state with
  | nil => exact Iff.rfl
  | cons label labels ih =>
      rw [Each, Each, hiff state label hstart]
      apply and_congr_right
      intro _
      exact forall₂_congr fun next hnext =>
        ih (hstep state label next hstart hnext)

/-- What every step from a state with the invariant does to a state, a whole run
does, if it can be composed. -/
theorem exec_related {Relates : State → State → Prop}
    (hrefl : ∀ state, Relates state state)
    (htrans : ∀ {first second third : State}, Relates first second →
      Relates second third → Relates first third)
    (hstep : ∀ state label next, Invariant state →
      step state label = some next → Invariant next ∧ Relates state next)
    {state final : State} {labels : List Label} (hstart : Invariant state)
    (hexec : exec step state labels = some final) :
    Invariant final ∧ Relates state final := by
  induction labels generalizing state with
  | nil =>
      cases hexec
      exact ⟨hstart, hrefl final⟩
  | cons label labels ih =>
      obtain ⟨next, hnext, hrest⟩ := exec_cons_iff.1 hexec
      obtain ⟨hinvariant, hrelates⟩ := hstep state label next hstart hnext
      obtain ⟨hfinal, hlater⟩ := ih hinvariant hrest
      exact ⟨hfinal, htrans hrelates hlater⟩

/-- A run visits only good states when every step preserves an invariant that
makes states good. -/
theorem throughout_of_step (hgood : ∀ state, Invariant state → Holds state)
    (hstep : ∀ state label next, Invariant state →
      step state label = some next → Invariant next)
    {state : State} {labels : List Label} (hstart : Invariant state) :
    Throughout step Holds state labels := by
  induction labels generalizing state with
  | nil => exact hgood state hstart
  | cons label labels ih =>
      exact ⟨hgood state hstart, fun next hnext =>
        ih (hstep state label next hstart hnext)⟩

theorem along_true (state : State) (labels : List Label) :
    Along step (fun _ _ => True) state labels := by
  induction labels generalizing state with
  | nil => trivial
  | cons label labels ih => exact fun next _ => ⟨trivial, ih next⟩

/-- A run of steps as promised visits only good states exactly when all its steps
are allowed, provided the allowed steps preserve an invariant that makes states
good and the others lead from it to a bad state. -/
theorem throughout_iff_along_of_promised {Promised : State → Label → Prop}
    (hgood : ∀ state, Invariant state → Holds state)
    (hstep : ∀ state label next, Invariant state → Promised state label →
      Allowed state label → step state label = some next → Invariant next)
    (hbreak : ∀ state label next, Invariant state → Promised state label →
      ¬ Allowed state label → step state label = some next → ¬ Holds next)
    {state : State} (hstart : Invariant state) {labels : List Label}
    (hpromised : Along step Promised state labels) :
    Throughout step Holds state labels ↔ Along step Allowed state labels := by
  induction labels generalizing state with
  | nil => exact iff_of_true (hgood state hstart) trivial
  | cons label labels ih =>
      constructor
      · intro hholds next hnext
        obtain ⟨hpromise, hpromised⟩ := hpromised next hnext
        have hallowed : Allowed state label := by
          by_contra hnot
          exact hbreak state label next hstart hpromise hnot hnext
            (hholds.2 next hnext).head
        exact ⟨hallowed,
          (ih (hstep state label next hstart hpromise hallowed hnext)
            hpromised).1 (hholds.2 next hnext)⟩
      · intro hallowed
        refine ⟨hgood state hstart, fun next hnext => ?_⟩
        obtain ⟨hpromise, hpromised⟩ := hpromised next hnext
        obtain ⟨hallows, hallowed⟩ := hallowed next hnext
        exact (ih (hstep state label next hstart hpromise hallows hnext)
          hpromised).2 hallowed

/-- The same without promises. -/
theorem throughout_iff_along
    (hgood : ∀ state, Invariant state → Holds state)
    (hstep : ∀ state label next, Invariant state → Allowed state label →
      step state label = some next → Invariant next)
    (hbreak : ∀ state label next, Invariant state → ¬ Allowed state label →
      step state label = some next → ¬ Holds next)
    {state : State} (hstart : Invariant state) (labels : List Label) :
    Throughout step Holds state labels ↔ Along step Allowed state labels :=
  throughout_iff_along_of_promised hgood
    (fun state label next hinvariant _ => hstep state label next hinvariant)
    (fun state label next hinvariant _ => hbreak state label next hinvariant)
    hstart (along_true state labels)

/-! ## Histories

A system together with a history that no step reads.
-/

section History

variable {History : Type*}
  {record : State → State → History → History}

/-- The system with a history that every step brings up to date. -/
def recording (step : State → Label → Option State)
    (record : State → State → History → History) :
    State × History → Label → Option (State × History)
  | (state, history), label =>
      (step state label).map fun next => (next, record state next history)

theorem recording_eq_some_iff {state next : State} {history later : History}
    {label : Label} :
    recording step record (state, history) label = some (next, later) ↔
      step state label = some next ∧ record state next history = later := by
  simp only [recording, Option.map_eq_some_iff, Prod.mk.injEq]
  constructor
  · rintro ⟨_, hstep, rfl, hrecord⟩
    exact ⟨hstep, hrecord⟩
  · rintro ⟨hstep, hrecord⟩
    exact ⟨next, hstep, rfl, hrecord⟩

/-- A history changes no run. -/
theorem exec_recording (state : State) (history : History)
    (labels : List Label) :
    (exec (recording step record) (state, history) labels).map Prod.fst =
      exec step state labels := by
  induction labels generalizing state history with
  | nil => rfl
  | cons label labels ih =>
      rw [exec, exec, recording]
      cases step state label with
      | none => rfl
      | some next => exact ih next (record state next history)

/-- A condition that reads no history is the same with it. -/
theorem Along.recording {state : State} {labels : List Label}
    (halong : Along step Allowed state labels) (history : History) :
    Along (recording step record)
      (fun recorded label => Allowed recorded.1 label) (state, history)
      labels := by
  induction labels generalizing state history with
  | nil => trivial
  | cons label labels ih =>
      rintro ⟨next, later⟩ hrecorded
      obtain ⟨hnext, _⟩ := recording_eq_some_iff.1 hrecorded
      obtain ⟨hallowed, hrest⟩ := halong next hnext
      exact ⟨hallowed, ih hrest later⟩

end History

/-! ## Simulation

A system that logs events, and an observer that is driven by inputs made from
these events.
-/

section Simulation

variable {Observer Input Event : Type*}
  {observe : Observer → Input → Option Observer} {log : State → List Event}
  {event : Input → Event} {Simulates : State → Observer → Prop}

/-- The observer takes the inputs for all events logged so far, whatever inputs
these are, and is then related to the state. -/
def Followed (observe : Observer → Input → Option Observer)
    (log : State → List Event) (event : Input → Event)
    (Simulates : State → Observer → Prop) (observer : Observer) (state : State) :
    Prop :=
  ∀ inputs, inputs.map event = log state →
    ∃ after, exec observe observer inputs = some after ∧ Simulates state after

/-- The inputs for the newly logged events take the observer along. -/
def Tracks (observe : Observer → Input → Option Observer)
    (log : State → List Event) (event : Input → Event)
    (Simulates : State → Observer → Prop) (state next : State)
    (observer : Observer) : Prop :=
  ∃ added, log next = log state ++ added ∧
    ∀ inputs, inputs.map event = added →
      ∃ after, exec observe observer inputs = some after ∧ Simulates next after

theorem Tracks.imp {Other : State → Observer → Prop} {state next : State}
    {observer : Observer}
    (htracks : Tracks observe log event Simulates state next observer)
    (himp : ∀ after, Simulates next after → Other next after) :
    Tracks observe log event Other state next observer := by
  obtain ⟨added, hlog, htake⟩ := htracks
  refine ⟨added, hlog, fun inputs hinputs => ?_⟩
  obtain ⟨after, hafter, hsimulates⟩ := htake inputs hinputs
  exact ⟨after, hafter, himp after hsimulates⟩

theorem Followed.advance (hevent : Function.Surjective event) {state next : State}
    {observer : Observer}
    (hfollowed : Followed observe log event Simulates observer state)
    (htracks : ∀ middle, Simulates state middle →
      Tracks observe log event Simulates state next middle) :
    Followed observe log event Simulates observer next := by
  intro inputs hinputs
  -- how the log grows is known once some observer is at the state
  obtain ⟨known, hknown⟩ := List.map_surjective_iff.2 hevent (log state)
  obtain ⟨middle, _, hsimulates⟩ := hfollowed known hknown
  obtain ⟨added, hlog, _⟩ := htracks middle hsimulates
  rw [hlog, List.map_eq_append_iff] at hinputs
  obtain ⟨front, back, rfl, hfront, hback⟩ := hinputs
  obtain ⟨middle, hmiddle, hsimulates⟩ := hfollowed front hfront
  obtain ⟨also, halso, htake⟩ := htracks middle hsimulates
  have hadded : also = added := List.append_cancel_left (halso.symm.trans hlog)
  obtain ⟨after, hafter, hsimulates⟩ := htake back (hback.trans hadded.symm)
  exact ⟨after, exec_append_iff.2 ⟨middle, hmiddle, hafter⟩, hsimulates⟩

/-- An observer that follows the start of a run of allowed steps follows it to
its end. -/
theorem exec_followed (hevent : Function.Surjective event)
    (hstep : ∀ state label next observer, Simulates state observer →
      Allowed state label → step state label = some next →
      Tracks observe log event Simulates state next observer)
    {state final : State} {labels : List Label} {observer : Observer}
    (hstart : Followed observe log event Simulates observer state)
    (halong : Along step Allowed state labels)
    (hexec : exec step state labels = some final) :
    Followed observe log event Simulates observer final := by
  apply exec_invariant _ hstart halong hexec
  intro state label next hfollowed hallowed hnext
  exact hfollowed.advance hevent fun middle hsimulates =>
    hstep state label next middle hsimulates hallowed hnext

end Simulation

end TwitterLike.Transition
