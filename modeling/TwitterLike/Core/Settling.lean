import TwitterLike.Core.Transition

/-!
# Runs that come to rest

Steps of which each uses up some of a bounded amount of work.  A run of such
steps cannot go on for ever, and where none of them is possible any more the
system rests until something else happens.
-/

namespace TwitterLike.Settling

open TwitterLike.Transition

variable {State Label Thread : Type*} {step : State → Label → Option State}
  {Works : State → Label → Prop} {Invariant : State → Prop} {effort : State → ℕ}
variable {state final : State} {labels : List Label}

/-- Every step that works leaves less to do. -/
def Wanes (step : State → Label → Option State) (Works : State → Label → Prop)
    (Invariant : State → Prop) (effort : State → ℕ) : Prop :=
  ∀ state label next, Invariant state → Works state label →
    step state label = some next → Invariant next ∧ effort next < effort state

/-- There is nothing left to do. -/
def AtRest (step : State → Label → Option State) (Works : State → Label → Prop)
    (state : State) : Prop :=
  ∀ label, Works state label → step state label = none

/-- A run of working steps is no longer than there is work. -/
theorem Wanes.length_le (hwanes : Wanes step Works Invariant effort)
    (hstart : Invariant state) (hworks : Along step Works state labels)
    (hrun : exec step state labels = some final) :
    Invariant final ∧ labels.length + effort final ≤ effort state := by
  induction labels generalizing state with
  | nil =>
      cases hrun
      exact ⟨hstart, (Nat.zero_add _).le⟩
  | cons label labels ih =>
      obtain ⟨next, hstep, hrest⟩ := exec_cons_iff.1 hrun
      obtain ⟨hlabel, hlabels⟩ := hworks next hstep
      obtain ⟨hnext, hless⟩ := hwanes state label next hstart hlabel hstep
      obtain ⟨hfinal, hle⟩ := ih hnext hlabels hrest
      refine ⟨hfinal, ?_⟩
      rw [List.length_cons]
      omega

/-- From every state the work can be done. -/
theorem Wanes.exists_atRest (hwanes : Wanes step Works Invariant effort)
    (hstart : Invariant state) :
    ∃ labels final, Along step Works state labels ∧
      exec step state labels = some final ∧ AtRest step Works final := by
  generalize hwork : effort state = work
  induction work using Nat.strong_induction_on generalizing state with
  | _ work ih =>
      by_cases hrest : AtRest step Works state
      · exact ⟨[], state, trivial, rfl, hrest⟩
      · simp only [AtRest, not_forall] at hrest
        obtain ⟨label, hlabel, henabled⟩ := hrest
        obtain ⟨next, hstep⟩ := Option.ne_none_iff_exists'.1 henabled
        obtain ⟨hnext, hless⟩ := hwanes state label next hstart hlabel hstep
        obtain ⟨labels, final, hworks, hrun, hfinal⟩ :=
          ih (effort next) (hwork ▸ hless) hnext rfl
        refine ⟨label :: labels, final, ?_, exec_cons_iff.2 ⟨next, hstep, hrun⟩,
          hfinal⟩
        intro other hother
        cases hstep.symm.trans hother
        exact ⟨hlabel, hworks⟩

/-! ## The work of many threads -/

/-- One thread gives up more than all threads together get. -/
theorem sum_lt_of_payer [DecidableEq Thread] {members : Finset Thread}
    {before after : Thread → ℕ} {payer : Thread} {raise : ℕ}
    (hmem : payer ∈ members)
    (hothers : ∀ other, other ≠ payer → after other ≤ before other + raise)
    (hpays : after payer + raise * members.card < before payer) :
    ∑ thread ∈ members, after thread < ∑ thread ∈ members, before thread := by
  have hrest : ∑ thread ∈ members.erase payer, after thread ≤
      ∑ thread ∈ members.erase payer, (before thread + raise) :=
    Finset.sum_le_sum fun other hother =>
      hothers other (Finset.ne_of_mem_erase hother)
  have hraises : ∑ thread ∈ members.erase payer, (before thread + raise) ≤
      (∑ thread ∈ members.erase payer, before thread) + raise * members.card := by
    rw [Finset.sum_add_distrib, Finset.sum_const, smul_eq_mul, mul_comm]
    gcongr
    exact Finset.erase_subset payer members
  rw [← Finset.add_sum_erase _ _ hmem, ← Finset.add_sum_erase _ before hmem]
  omega

end TwitterLike.Settling
