import Mathlib.Tactic

/-!
# Loops that consume a stream

A loop takes one input a turn.  A turn goes round again, ends the loop, or gets
stuck and takes no further input.  A loop terminates on a finite stream when it
ends however the dead inputs behind the stream go on.
-/

namespace TwitterLike.Consumer

variable {State Input Outcome : Type*}

inductive Turn (State Outcome : Type*) where
  | again (next : State)
  | ended (outcome : Outcome)
  | stuck

/-- What becomes of the loop on the inputs; `again` when it wants more. -/
def run (turn : State → Input → Turn State Outcome) :
    State → List Input → Turn State Outcome
  | state, [] => .again state
  | state, input :: inputs =>
      match turn state input with
      | .again next => run turn next inputs
      | .ended outcome => .ended outcome
      | .stuck => .stuck

/-- Some turn of the loop is taken in a state and with an input that meet the
condition. -/
def Reaches (turn : State → Input → Turn State Outcome)
    (Condition : State → Input → Prop) : State → List Input → Prop
  | _, [] => False
  | state, input :: inputs =>
      Condition state input ∨ ∃ next, turn state input = .again next ∧
        Reaches turn Condition next inputs

def EndsWell (Well : Outcome → Prop) (result : Turn State Outcome) : Prop :=
  ∃ outcome, result = .ended outcome ∧ Well outcome

/-- Behind the inputs, whatever dead inputs follow, the loop ends well. -/
def Terminates (turn : State → Input → Turn State Outcome) (Dead : Input → Prop)
    (Well : Outcome → Prop) (state : State) (inputs : List Input) : Prop :=
  ∀ dead : ℕ → Input, (∀ n, Dead (dead n)) →
    ∃ count, EndsWell Well
      (run turn state (inputs ++ (List.range count).map dead))

section Runs

variable {turn : State → Input → Turn State Outcome}

theorem run_cons (state : State) (input : Input) (inputs : List Input) :
    run turn state (input :: inputs) =
      match turn state input with
      | .again next => run turn next inputs
      | .ended outcome => .ended outcome
      | .stuck => .stuck := rfl

/-- Only a loop that still wants more receives what follows. -/
theorem run_append (state : State) (front back : List Input) :
    run turn state (front ++ back) =
      match run turn state front with
      | .again middle => run turn middle back
      | .ended outcome => .ended outcome
      | .stuck => .stuck := by
  induction front generalizing state with
  | nil => rfl
  | cons input inputs ih =>
      rw [List.cons_append, run_cons, run_cons]
      cases turn state input with
      | again next => exact ih next
      | ended outcome => rfl
      | stuck => rfl

theorem not_reaches {Condition : State → Input → Prop} {state : State}
    {inputs : List Input}
    (hnone : ∀ state, ∀ input ∈ inputs, ¬ Condition state input) :
    ¬ Reaches turn Condition state inputs := by
  induction inputs generalizing state with
  | nil => exact id
  | cons input inputs ih =>
      rintro (hcondition | ⟨next, _, hrest⟩)
      · exact hnone state input List.mem_cons_self hcondition
      · exact ih (fun state other hother =>
          hnone state other (List.mem_cons_of_mem _ hother)) hrest

theorem Reaches.of_append {Condition : State → Input → Prop} {state : State}
    {front back : List Input}
    (hback : ∀ state, ∀ input ∈ back, ¬ Condition state input)
    (hreaches : Reaches turn Condition state (front ++ back)) :
    Reaches turn Condition state front := by
  induction front generalizing state with
  | nil => exact absurd hreaches (not_reaches hback)
  | cons input inputs ih =>
      rcases hreaches with hcondition | ⟨next, hturn, hrest⟩
      · exact .inl hcondition
      · exact .inr ⟨next, hturn, ih hrest⟩

/-- A condition on the inputs alone is reached when every other input makes the
loop go round. -/
theorem reaches_iff_exists {Condition : Input → Prop} {state : State}
    {inputs : List Input}
    (hagain : ∀ state input, ¬ Condition input →
      ∃ next, turn state input = .again next) :
    Reaches turn (fun _ input => Condition input) state inputs ↔
      ∃ input ∈ inputs, Condition input := by
  induction inputs generalizing state with
  | nil => simp [Reaches]
  | cons input inputs ih =>
      rw [Reaches, List.exists_mem_cons_iff]
      by_cases hcondition : Condition input
      · exact iff_of_true (.inl hcondition) (.inl hcondition)
      · obtain ⟨next, hnext⟩ := hagain state input hcondition
        refine or_congr_right ?_
        rw [← @ih next]
        constructor
        · rintro ⟨other, hother, hreaches⟩
          cases hnext.symm.trans hother
          exact hreaches
        · exact fun hreaches => ⟨next, hnext, hreaches⟩

end Runs

/-! ## Which loops terminate -/

/-- The turns that go round with an accepted input keep the invariant. -/
def Keeps (turn : State → Input → Turn State Outcome)
    (Invariant : State → Prop) (Accepted : Input → Prop) : Prop :=
  ∀ state next input, Invariant state → Accepted input →
    turn state input = .again next → Invariant next

section Termination

variable {turn : State → Input → Turn State Outcome}
  {Invariant : State → Prop} {Accepted Dead : Input → Prop}
  {Condition : State → Input → Prop} {Well : Outcome → Prop} {state : State}
  {inputs : List Input}

/-- The loop has come to a result of a kind exactly when it reaches the
condition under which a turn comes to it. -/
theorem Keeps.run_iff_reaches (hkeeps : Keeps turn Invariant Accepted)
    (Result : Turn State Outcome → Prop)
    (hresult : ∀ next, ¬ Result (.again next))
    (hturn : ∀ state input, Invariant state → Accepted input →
      (Result (turn state input) ↔ Condition state input))
    (hstart : Invariant state) (haccepted : ∀ input ∈ inputs, Accepted input) :
    Result (run turn state inputs) ↔ Reaches turn Condition state inputs := by
  induction inputs generalizing state with
  | nil => exact iff_of_false (hresult state) id
  | cons input inputs ih =>
      obtain ⟨haccept, hrest⟩ := List.forall_mem_cons.1 haccepted
      rw [run_cons, Reaches, ← hturn state input hstart haccept]
      cases hnext : turn state input with
      | again next =>
          have hafter := ih (hkeeps state next input hstart haccept hnext) hrest
          simpa [hresult] using hafter
      | ended outcome => simp
      | stuck => simp

/-- Dead inputs that end no turn well leave it to the stream whether the loop
terminates. -/
theorem Keeps.terminates_iff_reaches (hkeeps : Keeps turn Invariant Accepted)
    (hturn : ∀ state input, Invariant state → Accepted input →
      (EndsWell Well (turn state input) ↔ Condition state input))
    (hexists : ∃ input, Dead input)
    (hdead : ∀ input, Dead input → Accepted input)
    (hspins : ∀ state input, Dead input → ¬ Condition state input)
    (hstart : Invariant state) (haccepted : ∀ input ∈ inputs, Accepted input) :
    Terminates turn Dead Well state inputs ↔
      Reaches turn Condition state inputs := by
  have hresult (next : State) :
      ¬ EndsWell Well (.again next : Turn State Outcome) := by
    rintro ⟨_, hended, _⟩
    cases hended
  constructor
  · intro hterminates
    obtain ⟨input, hinput⟩ := hexists
    obtain ⟨count, hends⟩ := hterminates (fun _ => input) fun _ => hinput
    have hdeads : ∀ other ∈ (List.range count).map fun _ => input,
        Dead other := by
      intro other hother
      obtain ⟨_, _, rfl⟩ := List.mem_map.1 hother
      exact hinput
    have hreaches := (hkeeps.run_iff_reaches _ hresult hturn hstart
      (List.forall_mem_append.2
        ⟨haccepted, fun other hother => hdead other (hdeads other hother)⟩)).1
      hends
    exact hreaches.of_append fun middle other hother =>
      hspins middle other (hdeads other hother)
  · intro hreaches dead _
    refine ⟨0, ?_⟩
    rw [List.range_zero, List.map_nil, List.append_nil]
    exact (hkeeps.run_iff_reaches _ hresult hturn hstart haccepted).2 hreaches

/-- Dead inputs that end every turn make the loop terminate unless it has got
stuck before. -/
theorem Keeps.terminates_iff_not_reaches (hkeeps : Keeps turn Invariant Accepted)
    (hturn : ∀ state input, Invariant state → Accepted input →
      (turn state input = .stuck ↔ Condition state input))
    (hexists : ∃ input, Dead input)
    (hends : ∀ state input, Dead input →
      ∃ outcome, turn state input = .ended outcome)
    (hstart : Invariant state) (haccepted : ∀ input ∈ inputs, Accepted input) :
    Terminates turn Dead (fun _ => True) state inputs ↔
      ¬ Reaches turn Condition state inputs := by
  have hstuck := hkeeps.run_iff_reaches (fun result => result = .stuck)
    (fun _ => nofun) hturn hstart haccepted
  rw [← hstuck]
  constructor
  · intro hterminates hstuck
    obtain ⟨input, hinput⟩ := hexists
    obtain ⟨count, outcome, hended, _⟩ :=
      hterminates (fun _ => input) fun _ => hinput
    rw [run_append, hstuck] at hended
    cases hended
  · intro hgoes dead hdead
    obtain ⟨outcome, hended⟩ : ∃ outcome,
        run turn state (inputs ++ (List.range 1).map dead) = .ended outcome := by
      rw [run_append]
      cases hinputs : run turn state inputs with
      | again middle =>
          obtain ⟨outcome, hlast⟩ := hends middle (dead 0) (hdead 0)
          refine ⟨outcome, ?_⟩
          change run turn middle [dead 0] = _
          rw [run_cons, hlast]
      | ended outcome => exact ⟨outcome, rfl⟩
      | stuck => exact absurd hinputs hgoes
    exact ⟨1, outcome, hended, trivial⟩

end Termination

end TwitterLike.Consumer
