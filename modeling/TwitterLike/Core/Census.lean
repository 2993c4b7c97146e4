import Mathlib.Data.Finset.Card
import Mathlib.Tactic

/-!
# Counting threads at program points

Any number of threads, each at a point.  A counter is right when it is the
number of threads at points of some kind; it stays right when one thread moves
and the counter follows it.
-/

namespace TwitterLike.Census

variable {Thread Point : Type*}

/-- Exactly `count` threads are at points of the kind. -/
def Counts (threads : Thread → Point) (Kind : Point → Prop) (count : ℤ) : Prop :=
  ∃ members : Finset Thread,
    (∀ thread, thread ∈ members ↔ Kind (threads thread)) ∧ count = members.card

variable {threads later : Thread → Point} {Kind : Point → Prop} {count : ℤ}
  {thread other : Thread} {point : Point}

theorem counts_zero (hnone : ∀ thread, ¬ Kind (threads thread)) :
    Counts threads Kind 0 := by
  refine ⟨∅, fun thread => ?_, rfl⟩
  exact iff_of_false (Finset.notMem_empty thread) (hnone thread)

theorem Counts.nonneg (hcounts : Counts threads Kind count) : 0 ≤ count := by
  obtain ⟨members, _, rfl⟩ := hcounts
  exact Int.natCast_nonneg members.card

theorem Counts.none_of_zero (hcounts : Counts threads Kind 0)
    (thread : Thread) : ¬ Kind (threads thread) := by
  obtain ⟨members, hmembers, hcard⟩ := hcounts
  have hempty : members = ∅ := Finset.card_eq_zero.1 (by exact_mod_cast hcard.symm)
  rw [← hmembers, hempty]
  exact Finset.notMem_empty thread

theorem Counts.eq_zero (hcounts : Counts threads Kind count)
    (hnone : ∀ thread, ¬ Kind (threads thread)) : count = 0 := by
  obtain ⟨members, hmembers, rfl⟩ := hcounts
  have hempty : members = ∅ := Finset.eq_empty_of_forall_notMem fun thread hmem =>
    hnone thread ((hmembers thread).1 hmem)
  rw [hempty]
  rfl

/-- At most one thread is at a point of the kind when the counter is at most
one. -/
theorem Counts.unique (hcounts : Counts threads Kind count) (hone : count ≤ 1)
    (hthread : Kind (threads thread)) (hother : Kind (threads other)) :
    thread = other := by
  obtain ⟨members, hmembers, rfl⟩ := hcounts
  have hle : members.card ≤ 1 := by exact_mod_cast hone
  exact Finset.card_le_one.1 hle thread ((hmembers thread).2 hthread) other
    ((hmembers other).2 hother)

/-- Threads may move between points of the same kind. -/
theorem Counts.congr (hcounts : Counts threads Kind count)
    (hsame : ∀ thread, Kind (later thread) ↔ Kind (threads thread)) :
    Counts later Kind count := by
  obtain ⟨members, hmembers, hcard⟩ := hcounts
  exact ⟨members, fun thread => (hmembers thread).trans (hsame thread).symm,
    hcard⟩

section Update

variable [DecidableEq Thread]

theorem Counts.keep (hcounts : Counts threads Kind count)
    (hsame : Kind point ↔ Kind (threads thread)) :
    Counts (Function.update threads thread point) Kind count := by
  apply hcounts.congr
  intro other
  by_cases hother : other = thread
  · rw [hother, Function.update_self]
    exact hsame
  · rw [Function.update_of_ne hother]

theorem Counts.enter (hcounts : Counts threads Kind count)
    (hbefore : ¬ Kind (threads thread)) (hafter : Kind point) :
    Counts (Function.update threads thread point) Kind (count + 1) := by
  obtain ⟨members, hmembers, rfl⟩ := hcounts
  have habsent : thread ∉ members := fun hmem => hbefore ((hmembers thread).1 hmem)
  refine ⟨insert thread members, fun other => ?_, ?_⟩
  · rw [Finset.mem_insert, hmembers]
    by_cases hother : other = thread
    · simp [hother, hafter]
    · simp [hother]
  · rw [Finset.card_insert_of_notMem habsent]
    push_cast
    rfl

theorem Counts.leave (hcounts : Counts threads Kind count)
    (hbefore : Kind (threads thread)) (hafter : ¬ Kind point) :
    Counts (Function.update threads thread point) Kind (count - 1) := by
  obtain ⟨members, hmembers, rfl⟩ := hcounts
  have hmem : thread ∈ members := (hmembers thread).2 hbefore
  refine ⟨members.erase thread, fun other => ?_, ?_⟩
  · rw [Finset.mem_erase, hmembers]
    by_cases hother : other = thread
    · simp [hother, hafter]
    · simp [hother]
  · have hcard := Finset.card_erase_add_one hmem
    omega

end Update

end TwitterLike.Census
