import Mathlib.Data.List.Basic

/-!
# Which of two elements stands first

An element precedes another in a list when it stands before it somewhere and
nowhere behind it.  The order of a list that is sorted by a relation, as far as
some of its elements go, is that relation.
-/

namespace TwitterLike.Precedence

variable {α : Type*} {list : List α} {first second : α}

def Precedes (list : List α) (first second : α) : Prop :=
  [first, second].Sublist list ∧ ¬ [second, first].Sublist list

instance [DecidableEq α] (list : List α) (first second : α) :
    Decidable (Precedes list first second) :=
  inferInstanceAs (Decidable (_ ∧ _))

/-- Two elements of a list stand in one order or the other. -/
theorem sublist_or_of_mem (hfirst : first ∈ list) (hsecond : second ∈ list)
    (hne : first ≠ second) :
    [first, second].Sublist list ∨ [second, first].Sublist list := by
  induction list with
  | nil => cases hfirst
  | cons head tail ih =>
      rcases List.mem_cons.1 hfirst with rfl | hlater
      · have htail := List.mem_of_ne_of_mem (Ne.symm hne) hsecond
        exact .inl (List.cons_sublist_cons.2 (List.singleton_sublist.2 htail))
      · rcases List.mem_cons.1 hsecond with rfl | hother
        · exact .inr (List.cons_sublist_cons.2 (List.singleton_sublist.2 hlater))
        · exact (ih hlater hother).imp (·.cons head) (·.cons head)

variable {r : α → α → Prop}

theorem rel_of_sublist (hsorted : list.Pairwise r)
    (hsublist : [first, second].Sublist list) : r first second :=
  List.pairwise_iff_forall_sublist.1 hsorted hsublist

/-- Elements of a list whose selected part is sorted stand in the order of the
relation. -/
theorem precedes_of_sorted [Std.Asymm r] {select : α → Bool}
    (hsorted : (list.filter select).Pairwise r) (hfirst : first ∈ list)
    (hsecond : second ∈ list) (hselected : select first = true)
    (hother : select second = true) (hrel : r first second) :
    Precedes list first second := by
  have hnot : ¬ [second, first].Sublist list := by
    intro hbehind
    have hboth := hbehind.filter select
    rw [List.filter_cons_of_pos hother, List.filter_cons_of_pos hselected,
      List.filter_nil] at hboth
    exact Std.Asymm.asymm _ _ hrel (rel_of_sublist hsorted hboth)
  have hne : first ≠ second := by
    rintro rfl
    exact Std.Asymm.asymm _ _ hrel hrel
  exact ⟨(sublist_or_of_mem hfirst hsecond hne).resolve_right hnot, hnot⟩

/-- An element behind all others, if it is selected. -/
theorem sorted_concat {select : α → Bool} {last : α}
    (hsorted : (list.filter select).Pairwise r)
    (hlast : ∀ element ∈ list, r element last) :
    ((list ++ [last]).filter select).Pairwise r := by
  rw [List.filter_append, List.pairwise_append]
  refine ⟨hsorted, (List.pairwise_singleton r last).filter select, ?_⟩
  intro element helement other hother
  rw [List.mem_singleton.1 (List.mem_of_mem_filter hother)]
  exact hlast element (List.mem_of_mem_filter helement)

end TwitterLike.Precedence
