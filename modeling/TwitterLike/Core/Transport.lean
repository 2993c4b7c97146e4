import Mathlib.Tactic

/-!
# Segmentations of a stream

An ordered transport delivers a stream in nonempty chunks of at most some fixed
size, cut at arbitrary places.  When the stream is a sequence of messages of
exactly that size, the chunks are the messages as soon as there are as many of
them, or as soon as each of them is full.
-/

namespace TwitterLike.Transport

variable {α : Type*}

/-- One way of cutting `stream` into nonempty chunks of at most `limit`
elements. -/
structure Segmentation (limit : ℕ) (stream : List α) where
  chunks : List (List α)
  flatten_chunks : chunks.flatten = stream
  nonempty : ∀ chunk ∈ chunks, 1 ≤ chunk.length
  bounded : ∀ chunk ∈ chunks, chunk.length ≤ limit

theorem length_flatten_of_uniform {limit : ℕ} {messages : List (List α)}
    (huniform : ∀ message ∈ messages, message.length = limit) :
    messages.flatten.length = limit * messages.length := by
  induction messages with
  | nil => rfl
  | cons message messages ih =>
      rw [List.forall_mem_cons] at huniform
      rw [List.flatten_cons, List.length_append, ih huniform.2, huniform.1,
        List.length_cons]
      ring

theorem length_flatten_le {limit : ℕ} {chunks : List (List α)}
    (hbounded : ∀ chunk ∈ chunks, chunk.length ≤ limit) :
    chunks.flatten.length ≤ limit * chunks.length := by
  induction chunks with
  | nil => simp
  | cons chunk chunks ih =>
      rw [List.forall_mem_cons] at hbounded
      rw [List.flatten_cons, List.length_append, List.length_cons, mul_add_one]
      have hrest := ih hbounded.2
      omega

/-- Two uniform cuts of one stream are the same. -/
theorem eq_of_uniform {limit : ℕ} (hpositive : 0 < limit)
    {left right : List (List α)} (hflatten : left.flatten = right.flatten)
    (hleft : ∀ message ∈ left, message.length = limit)
    (hright : ∀ message ∈ right, message.length = limit) : left = right := by
  induction left generalizing right with
  | nil =>
      have hlength := length_flatten_of_uniform hright
      rw [← hflatten, List.flatten_nil, List.length_nil] at hlength
      have hempty : right.length = 0 := by
        rcases Nat.mul_eq_zero.1 hlength.symm with hzero | hzero
        · omega
        · exact hzero
      exact (List.length_eq_zero_iff.1 hempty).symm
  | cons message left ih =>
      rw [List.forall_mem_cons] at hleft
      cases right with
      | nil =>
          have hlength := congrArg List.length hflatten
          simp only [List.flatten_cons, List.flatten_nil, List.length_append,
            List.length_nil] at hlength
          omega
      | cons message' right =>
          rw [List.forall_mem_cons] at hright
          obtain ⟨hhead, htail⟩ := List.append_inj hflatten
            (hleft.1.trans hright.1.symm)
          rw [hhead, ih htail hleft.2 hright.2]

namespace Segmentation

variable {limit : ℕ} {messages : List (List α)}

/-- Full chunks of a stream of full messages are the messages. -/
theorem chunks_eq_of_full (hpositive : 0 < limit)
    (huniform : ∀ message ∈ messages, message.length = limit)
    (transport : Segmentation limit messages.flatten)
    (hfull : ∀ chunk ∈ transport.chunks, chunk.length = limit) :
    transport.chunks = messages :=
  eq_of_uniform hpositive transport.flatten_chunks hfull huniform

/-- If there are only as many chunks as messages, no chunk can be short. -/
theorem full_of_length_eq
    (huniform : ∀ message ∈ messages, message.length = limit)
    (transport : Segmentation limit messages.flatten)
    (hcount : transport.chunks.length = messages.length) :
    ∀ chunk ∈ transport.chunks, chunk.length = limit := by
  have htotal : transport.chunks.flatten.length =
      limit * transport.chunks.length := by
    rw [transport.flatten_chunks, length_flatten_of_uniform huniform, hcount]
  intro chunk hchunk
  obtain ⟨before, after, hsplit⟩ := List.append_of_mem hchunk
  have hbounded := transport.bounded
  rw [hsplit] at htotal hbounded
  have hbefore : before.flatten.length ≤ limit * before.length :=
    length_flatten_le fun part hpart =>
      hbounded part (List.mem_append_left _ hpart)
  have hafter : after.flatten.length ≤ limit * after.length :=
    length_flatten_le fun part hpart =>
      hbounded part (List.mem_append_right _ (List.mem_cons_of_mem _ hpart))
  have hchunk' : chunk.length ≤ limit :=
    hbounded chunk (List.mem_append_right _ List.mem_cons_self)
  simp only [List.flatten_append, List.flatten_cons, List.length_append,
    List.length_cons, mul_add, mul_one] at htotal
  omega

end Segmentation

end TwitterLike.Transport
