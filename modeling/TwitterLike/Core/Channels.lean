import Mathlib.Data.List.Perm.Subperm
import Mathlib.Tactic.Simps.Basic

/-!
# Channels in order

A channel keeps everything that has been posted and how much of it has been
received.  What is received comes in the order in which it was posted, so it is a
prefix of it; lists that come from many channels are compared channel by channel.
-/

namespace TwitterLike.Channels

open scoped List

variable {α : Type*}

structure Channel (α : Type*) where
  log : List α
  position : ℕ
  inside : position ≤ log.length

namespace Channel

/-- Nothing has been posted. -/
@[simps]
def empty : Channel α := ⟨[], 0, Nat.le_refl 0⟩

variable (channel : Channel α)

@[simps]
def post (items : List α) : Channel α where
  log := channel.log ++ items
  position := channel.position
  inside := Nat.le_trans channel.inside (by simp)

/-- The next item, and the channel behind it. -/
def receive : Option (α × Channel α) :=
  if hmore : channel.position < channel.log.length then
    some (channel.log[channel.position], ⟨channel.log, channel.position + 1, hmore⟩)
  else none

def received : List α := channel.log.take channel.position

def pending : List α := channel.log.drop channel.position

variable {channel}

@[simp]
theorem received_append_pending : channel.received ++ channel.pending = channel.log :=
  List.take_append_drop ..

@[simp]
theorem received_empty : (empty : Channel α).received = [] := rfl

@[simp]
theorem received_post (items : List α) :
    (channel.post items).received = channel.received :=
  List.take_append_of_le_length channel.inside

@[simp]
theorem length_received : channel.received.length = channel.position :=
  List.length_take_of_le channel.inside

theorem received_prefix : channel.received <+: channel.log := List.take_prefix ..

theorem mem_log_of_received {item : α} (hitem : item ∈ channel.received) :
    item ∈ channel.log :=
  received_prefix.subset hitem

theorem received_eq_nil_iff : channel.received = [] ↔ channel.position = 0 := by
  rw [← List.length_eq_zero_iff, length_received]

theorem received_of_drained (hdrained : channel.pending = []) :
    channel.received = channel.log := by
  rw [← @received_append_pending _ channel, hdrained, List.append_nil]

theorem receive_of_pending {item : α} {rest : List α}
    (hpending : channel.pending = item :: rest) :
    ∃ after, channel.receive = some (item, after) := by
  have hmore : channel.position < channel.log.length := by
    by_contra hnone
    rw [pending, List.drop_of_length_le (Nat.le_of_not_lt hnone)] at hpending
    cases hpending
  have hitem : channel.log[channel.position] = item := by
    rw [pending, List.drop_eq_getElem_cons hmore] at hpending
    exact (List.cons.inj hpending).1
  exact ⟨_, by rw [receive, dif_pos hmore, hitem]⟩

section Receiving

variable {after : Channel α} {item : α}
  (hreceive : channel.receive = some (item, after))

include hreceive

theorem log_of_receive : after.log = channel.log := by
  unfold receive at hreceive
  split at hreceive
  · cases hreceive
    rfl
  · cases hreceive

theorem received_of_receive : after.received = channel.received ++ [item] := by
  unfold receive at hreceive
  split at hreceive
  · cases hreceive
    exact List.take_succ_eq_append_getElem _
  · cases hreceive

theorem mem_log_of_receive : item ∈ channel.log := by
  rw [← log_of_receive hreceive]
  refine mem_log_of_received ?_
  rw [received_of_receive hreceive]
  exact List.mem_append_right _ (List.mem_singleton_self item)

theorem pending_of_receive : channel.pending = item :: after.pending := by
  have hsplit := @received_append_pending _ after
  rw [log_of_receive hreceive, received_of_receive hreceive, List.append_assoc,
    ← @received_append_pending _ channel, List.append_cancel_left_eq] at hsplit
  exact hsplit.symm

/-- The first item that is received is the first that was posted. -/
theorem head_of_receive (hfirst : channel.position = 0) :
    channel.log.head? = some item := by
  have hprefix : after.received <+: channel.log :=
    log_of_receive hreceive ▸ received_prefix
  rw [received_of_receive hreceive, received_eq_nil_iff.2 hfirst] at hprefix
  obtain ⟨rest, hrest⟩ := hprefix
  rw [← hrest]
  rfl

/-- Every later item was posted behind the first. -/
theorem mem_tail_of_receive (hlater : channel.position ≠ 0) :
    item ∈ channel.log.tail := by
  have hprefix : after.received <+: channel.log :=
    log_of_receive hreceive ▸ received_prefix
  rw [received_of_receive hreceive] at hprefix
  have hne : channel.received ≠ [] := mt received_eq_nil_iff.1 hlater
  obtain ⟨rest, hrest⟩ := hprefix
  rw [← hrest, List.append_assoc, List.tail_append_of_ne_nil hne]
  simp

end Receiving

end Channel

/-- An item behind a part that is no shorter is in the second half. -/
theorem mem_of_append_eq {before after front back : List α} {item : α}
    (happend : before ++ after = front ++ item :: back)
    (hlength : before.length ≤ front.length) : item ∈ after := by
  rcases List.append_eq_append_iff.1 happend with ⟨middle, _, rfl⟩ | ⟨middle, rfl, hitem⟩
  · simp
  · have hempty : middle = [] := by
      rw [List.length_append] at hlength
      exact List.length_eq_zero_iff.1 (by omega)
    rw [hempty, List.nil_append] at hitem
    exact hitem ▸ List.mem_cons_self

/-! ## Lists by key -/

theorem subperm_map {β : Type*} {left right : List α} (f : α → β)
    (hsubperm : left <+~ right) : left.map f <+~ right.map f := by
  obtain ⟨middle, hperm, hsublist⟩ := hsubperm
  exact ⟨middle.map f, hperm.map f, hsublist.map f⟩

section Keys

variable {Key β γ : Type*} [DecidableEq Key] [DecidableEq α]

theorem count_pair (list : List β) (keyOf : β → Key) (value : β → α) (key : Key)
    (item : α) :
    (list.map fun entry => (keyOf entry, value entry)).count (key, item) =
      ((list.filter fun entry => keyOf entry = key).map value).count item := by
  rw [List.count, List.countP_map, List.count, List.countP_map, List.countP_filter]
  congr 1
  funext entry
  rw [Bool.eq_iff_iff]
  simp [and_comm]

/-- The values of one list are among those of another, with multiplicities, when
that holds for the values of every key. -/
theorem subperm_of_keys {left : List β} {right : List γ} (keyOf : β → Key)
    (value : β → α) (otherKeyOf : γ → Key) (otherValue : γ → α)
    (hkeys : ∀ key, (left.filter fun item => keyOf item = key).map value <+~
      (right.filter fun item => otherKeyOf item = key).map otherValue) :
    left.map value <+~ right.map otherValue := by
  have htagged : left.map (fun entry => (keyOf entry, value entry)) <+~
      right.map fun entry => (otherKeyOf entry, otherValue entry) := by
    rw [List.subperm_ext_iff]
    rintro ⟨key, item⟩ _
    rw [count_pair, count_pair]
    exact (hkeys key).count_le item
  have hvalues := subperm_map Prod.snd htagged
  rwa [List.map_map, List.map_map] at hvalues

end Keys

end TwitterLike.Channels
