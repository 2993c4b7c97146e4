import Mathlib.Tactic

/-!
# Rings given by lists

Every entry of a list passes a token on to the entry behind it, and the last one
to the first.  An entry looks for itself from the front, so an entry that stands
in the list twice passes on from its first place only, and what lies between its
two places and the end may never see the token.
-/

namespace TwitterLike.Rings

variable {Entry : Type*}

section Ring

variable [BEq Entry] [LawfulBEq Entry]

/-- Where an entry of the list passes the token. -/
def next (ring : List Entry) (entry : Entry) : Entry :=
  ring[(ring.idxOf entry + 1) % ring.length]?.getD entry

/-- The token that starts at `start` comes to the entry before it comes back. -/
def Visits (ring : List Entry) (start entry : Entry) : Prop :=
  ∃ count, (next ring)^[count] start = entry ∧
    ∀ earlier, 0 < earlier → earlier ≤ count →
      (next ring)^[earlier] start ≠ start

def ReachesAll (ring : List Entry) : Prop :=
  ∀ start ∈ ring, ∀ entry ∈ ring, Visits ring start entry

/-- All entries come before the first repeated one, which repeats the first. -/
structure Shaped (front rest : List Entry) : Prop where
  nodup : front.Nodup
  covered : ∀ entry ∈ rest, entry ∈ front
  again : ∀ entry ∈ rest.head?, front.head? = some entry

/-! ## One step -/

section Next

variable {front rest : List Entry} {entry : Entry} {index : ℕ}

theorem next_of_getElem? (hnodup : front.Nodup)
    (hentry : front[index]? = some entry) :
    next (front ++ rest) entry =
      (front ++ rest)[(index + 1) % (front ++ rest).length]?.getD entry := by
  obtain ⟨hindex, rfl⟩ := List.getElem?_eq_some_iff.1 hentry
  rw [next, List.idxOf_append_of_mem (List.getElem_mem hindex),
    hnodup.idxOf_getElem]

/-- In front of the last place the token goes on by one place. -/
theorem next_of_lt (hnodup : front.Nodup) (hentry : front[index]? = some entry)
    (hindex : index + 1 < front.length) :
    front[index + 1]? = some (next (front ++ rest) entry) := by
  have hlength : index + 1 < (front ++ rest).length := by
    rw [List.length_append]
    omega
  rw [next_of_getElem? hnodup hentry, Nat.mod_eq_of_lt hlength,
    List.getElem?_append_left hindex, List.getElem?_eq_getElem hindex,
    Option.getD_some]

/-- From the last place it goes to what stands behind, or to the first place. -/
theorem next_of_last (hnodup : front.Nodup)
    (hentry : front[index]? = some entry) (hindex : index + 1 = front.length) :
    rest.head?.or front.head? = some (next (front ++ rest) entry) := by
  rw [next_of_getElem? hnodup hentry, hindex]
  cases rest with
  | nil =>
      have hpositive : 0 < front.length := by omega
      rw [List.append_nil, Nat.mod_self, List.head?_nil, Option.none_or,
        List.head?_eq_getElem?, List.getElem?_eq_getElem hpositive,
        Option.getD_some]
  | cons again rest =>
      have hlength : front.length < (front ++ again :: rest).length := by
        rw [List.length_append, List.length_cons]
        omega
      rw [Nat.mod_eq_of_lt hlength, List.getElem?_append_right (le_refl _),
        Nat.sub_self]
      rfl

end Next

/-! ## Lists that reach all entries -/

section Shaped

variable {front rest : List Entry} {entry start : Entry} {index : ℕ}

/-- The token goes around `front`. -/
theorem Shaped.next (hshaped : Shaped front rest)
    (hentry : front[index]? = some entry) :
    front[(index + 1) % front.length]? = some (next (front ++ rest) entry) := by
  have hindex : index + 1 ≤ front.length :=
    (List.getElem?_eq_some_iff.1 hentry).1
  rcases hindex.lt_or_eq with hlt | hlast
  · rw [Nat.mod_eq_of_lt hlt]
    exact next_of_lt hshaped.nodup hentry hlt
  · rw [hlast, Nat.mod_self, ← next_of_last hshaped.nodup hentry hlast,
      ← List.head?_eq_getElem?]
    cases hhead : rest.head? with
    | none => rw [Option.none_or]
    | some again => rw [Option.some_or, hshaped.again again hhead]

theorem Shaped.iterate (hshaped : Shaped front rest)
    (hstart : front[index]? = some start) (count : ℕ) :
    front[(index + count) % front.length]? =
      some ((Rings.next (front ++ rest))^[count] start) := by
  induction count with
  | zero =>
      rw [add_zero, Nat.mod_eq_of_lt (List.getElem?_eq_some_iff.1 hstart).1]
      exact hstart
  | succ count ih =>
      have hmod : ((index + count) % front.length + 1) % front.length =
          (index + (count + 1)) % front.length := by
        rw [Nat.mod_add_mod, add_assoc]
      rw [Function.iterate_succ_apply', ← hmod]
      exact hshaped.next ih

/-- Behind less than a whole round the token is elsewhere. -/
theorem Shaped.not_back (hshaped : Shaped front rest)
    (hstart : front[index]? = some start) {count : ℕ} (hpositive : 0 < count)
    (hround : count < front.length) :
    (Rings.next (front ++ rest))^[count] start ≠ start := by
  intro hback
  have hindex : index < front.length := (List.getElem?_eq_some_iff.1 hstart).1
  have hiterate := hshaped.iterate hstart count
  rw [hback, ← hstart] at hiterate
  have hsame : (index + count) % front.length = index :=
    (List.getElem?_inj (Nat.mod_lt _ (by omega)) hshaped.nodup).1 hiterate
  rcases lt_or_ge (index + count) front.length with hlt | hge
  · rw [Nat.mod_eq_of_lt hlt] at hsame
    omega
  · rw [Nat.mod_eq_sub_mod hge, Nat.mod_eq_of_lt (by omega)] at hsame
    omega

theorem Shaped.reachesAll (hshaped : Shaped front rest) :
    ReachesAll (front ++ rest) := by
  have hfront (entry : Entry) (hmem : entry ∈ front ++ rest) :
      ∃ index < front.length, front[index]? = some entry := by
    obtain ⟨index, hindex, hentry⟩ := List.getElem_of_mem
      ((List.mem_append.1 hmem).elim id (hshaped.covered entry))
    exact ⟨index, hindex, List.getElem?_eq_some_iff.2 ⟨hindex, hentry⟩⟩
  intro start hstart entry hentry
  obtain ⟨first, hfirst, hstart⟩ := hfront start hstart
  obtain ⟨last, hlast, hentry⟩ := hfront entry hentry
  -- the way from the one place to the other, around the end if need be
  have hway : ∃ count < front.length,
      (first + count) % front.length = last := by
    rcases le_or_gt first last with hle | hgt
    · refine ⟨last - first, by omega, ?_⟩
      rw [Nat.add_sub_cancel' hle, Nat.mod_eq_of_lt hlast]
    · refine ⟨last + front.length - first, by omega, ?_⟩
      rw [Nat.add_sub_cancel' (by omega), Nat.add_mod_right,
        Nat.mod_eq_of_lt hlast]
  obtain ⟨count, hcount, hsame⟩ := hway
  refine ⟨count, ?_, fun earlier hpositive hearlier =>
    hshaped.not_back hstart hpositive (hearlier.trans_lt hcount)⟩
  have hiterate := hshaped.iterate hstart count
  rw [hsame, hentry] at hiterate
  exact (Option.some.inj hiterate).symm

end Shaped

/-! ## Lists that do not -/

section Cut

variable {front rest : List Entry} {entry start again : Entry} {bound : ℕ}

/-- The entry stands in the list at `bound` or behind. -/
def Behind (front : List Entry) (bound : ℕ) (entry : Entry) : Prop :=
  ∃ index, bound ≤ index ∧ front[index]? = some entry

/-- A token behind the place that the first repeated entry repeats stays there. -/
theorem Behind.next (hnodup : front.Nodup) (hagain : Behind front bound again)
    (hbehind : Behind front bound entry) :
    Behind front bound (Rings.next (front ++ again :: rest) entry) := by
  obtain ⟨index, hbound, hentry⟩ := hbehind
  have hindex : index + 1 ≤ front.length :=
    (List.getElem?_eq_some_iff.1 hentry).1
  rcases hindex.lt_or_eq with hlt | hlast
  · exact ⟨index + 1, Nat.le_succ_of_le hbound, next_of_lt hnodup hentry hlt⟩
  · have hnext := @next_of_last _ _ _ _ (again :: rest) _ _ hnodup hentry hlast
    rwa [← Option.some.inj hnext]

theorem Behind.iterate (hnodup : front.Nodup) (hagain : Behind front bound again)
    (hstart : Behind front bound start) (count : ℕ) :
    Behind front bound
      ((Rings.next (front ++ again :: rest))^[count] start) := by
  induction count with
  | zero => exact hstart
  | succ count ih =>
      rw [Function.iterate_succ_apply']
      exact Behind.next hnodup hagain ih

/-- Every list is a list without repetitions and what begins with its first
repeated entry. -/
theorem exists_front (ring : List Entry) :
    ∃ front rest, ring = front ++ rest ∧ front.Nodup ∧
      ∀ again ∈ rest.head?, again ∈ front := by
  induction ring using List.reverseRecOn with
  | nil => exact ⟨[], [], rfl, List.nodup_nil, nofun⟩
  | append_singleton ring entry ih =>
      obtain ⟨front, rest, rfl, hnodup, hagain⟩ := ih
      cases rest with
      | cons again rest =>
          exact ⟨front, again :: rest ++ [entry], List.append_assoc .., hnodup,
            hagain⟩
      | nil =>
          rw [List.append_nil]
          by_cases hmem : entry ∈ front
          · refine ⟨front, [entry], rfl, hnodup, ?_⟩
            rintro _ ⟨⟩
            exact hmem
          · refine ⟨front ++ [entry], [], (List.append_nil _).symm, ?_, nofun⟩
            apply hnodup.append (List.nodup_singleton entry)
            exact List.disjoint_singleton.2 hmem

/-- If the token comes to all entries from everywhere, the list has the shape. -/
theorem shaped_of_reachesAll (hnodup : front.Nodup)
    (hagain : ∀ again ∈ rest.head?, again ∈ front)
    (hreaches : ReachesAll (front ++ rest)) : Shaped front rest := by
  cases rest with
  | nil => exact ⟨hnodup, nofun, nofun⟩
  | cons again rest =>
      obtain ⟨place, hplace⟩ := List.mem_iff_getElem?.1 (hagain again rfl)
      have hbehind : ∀ entry ∈ front ++ again :: rest,
          Behind front place entry := by
        intro entry hentry
        have hmem : again ∈ front ++ again :: rest :=
          List.mem_append_right _ List.mem_cons_self
        obtain ⟨count, rfl, _⟩ := hreaches again hmem entry hentry
        have hthere : Behind front place again := ⟨place, le_refl _, hplace⟩
        exact Behind.iterate hnodup hthere hthere count
      refine ⟨hnodup, fun entry hentry => ?_, ?_⟩
      · obtain ⟨index, _, hindex⟩ :=
          hbehind entry (List.mem_append_right _ hentry)
        exact List.mem_of_getElem? hindex
      · rintro _ ⟨⟩
        have hpositive : 0 < front.length :=
          (Nat.zero_le place).trans_lt (List.getElem?_eq_some_iff.1 hplace).1
        obtain ⟨index, hbound, hindex⟩ := hbehind front[0]
          (List.mem_append_left _ (List.getElem_mem hpositive))
        -- the first entry stands only once in `front`
        have hzero : index = 0 :=
          (List.getElem?_inj (List.getElem?_eq_some_iff.1 hindex).1 hnodup).1
            (hindex.trans (List.getElem?_eq_getElem hpositive).symm)
        rw [List.head?_eq_getElem?, ← hplace]
        congr 1
        omega

theorem reachesAll_iff (ring : List Entry) :
    ReachesAll ring ↔ ∃ front rest, ring = front ++ rest ∧ Shaped front rest := by
  constructor
  · intro hreaches
    obtain ⟨front, rest, rfl, hnodup, hagain⟩ := exists_front ring
    exact ⟨front, rest, rfl, shaped_of_reachesAll hnodup hagain hreaches⟩
  · rintro ⟨front, rest, rfl, hshaped⟩
    exact hshaped.reachesAll

end Cut

/-! ## Lists that grow -/

section Growing

variable {ring : List Entry} {entry : Entry}

/-- The entry can be appended. -/
structure Admits (ring : List Entry) (entry : Entry) : Prop where
  /-- the first repeated entry is the first one -/
  again : entry ∈ ring → ring.Nodup → ring.head? = some entry
  /-- behind the first repeated entry there is no new one -/
  unseen : entry ∉ ring → ring.Nodup

instance [DecidableEq Entry] (ring : List Entry) (entry : Entry) :
    Decidable (Admits ring entry) :=
  decidable_of_iff
    ((entry ∈ ring → ring.Nodup → ring.head? = some entry) ∧
      (entry ∉ ring → ring.Nodup))
    ⟨fun hboth => ⟨hboth.1, hboth.2⟩, fun hadmits => ⟨hadmits.1, hadmits.2⟩⟩

omit [BEq Entry] [LawfulBEq Entry] in
theorem Shaped.nodup_iff {front rest : List Entry} (hshaped : Shaped front rest) :
    (front ++ rest).Nodup ↔ rest = [] := by
  constructor
  · intro hnodup
    apply List.eq_nil_iff_forall_not_mem.2
    intro again hagain
    exact List.disjoint_of_nodup_append hnodup (hshaped.covered again hagain)
      hagain
  · rintro rfl
    rw [List.append_nil]
    exact hshaped.nodup

theorem Shaped.append {front rest : List Entry} (hshaped : Shaped front rest)
    (hadmits : Admits (front ++ rest) entry) :
    ReachesAll (front ++ rest ++ [entry]) := by
  rw [reachesAll_iff]
  by_cases hmem : entry ∈ front ++ rest
  · have hfront : entry ∈ front :=
      (List.mem_append.1 hmem).elim id (hshaped.covered entry)
    refine ⟨front, rest ++ [entry], List.append_assoc .., hshaped.nodup, ?_, ?_⟩
    · intro other hother
      rcases List.mem_append.1 hother with hbefore | hlast
      · exact hshaped.covered other hbefore
      · rwa [List.mem_singleton.1 hlast]
    · cases rest with
      | nil =>
          have hfirst := hadmits.again hmem (hshaped.nodup_iff.2 rfl)
          rw [List.append_nil] at hfirst
          rintro _ ⟨⟩
          exact hfirst
      | cons again rest => exact hshaped.again
  · obtain rfl := hshaped.nodup_iff.1 (hadmits.unseen hmem)
    rw [List.append_nil] at hmem ⊢
    refine ⟨front ++ [entry], [], (List.append_nil _).symm, ?_, nofun, nofun⟩
    exact hshaped.nodup.append (List.nodup_singleton entry)
      (List.disjoint_singleton.2 hmem)

omit [BEq Entry] [LawfulBEq Entry] in
theorem Shaped.of_append {front rest : List Entry}
    (hshaped : Shaped front (rest ++ [entry])) :
    Shaped front rest ∧ Admits (front ++ rest) entry := by
  have hbefore : Shaped front rest := by
    refine ⟨hshaped.nodup, fun other hother =>
      hshaped.covered other (List.mem_append_left _ hother), ?_⟩
    intro again hagain
    exact hshaped.again again (List.mem_head?_append_of_mem_head? hagain)
  refine ⟨hbefore, ?_, fun hnew => ?_⟩
  · intro _ hnodup
    obtain rfl := hbefore.nodup_iff.1 hnodup
    rw [List.append_nil]
    exact hshaped.again entry rfl
  · have hfront : entry ∈ front :=
      hshaped.covered entry (List.mem_append_right _ List.mem_cons_self)
    exact absurd (List.mem_append_left _ hfront) hnew

/-- A longer list reaches all entries exactly when the shorter one does and
admits the last. -/
theorem reachesAll_append_iff (ring : List Entry) (entry : Entry) :
    ReachesAll (ring ++ [entry]) ↔ ReachesAll ring ∧ Admits ring entry := by
  constructor
  · intro hreaches
    obtain ⟨front, rest, hsplit, hshaped⟩ := (reachesAll_iff _).1 hreaches
    rcases List.eq_nil_or_concat' rest with rfl | ⟨rest, last, rfl⟩
    · rw [List.append_nil] at hsplit
      subst hsplit
      obtain ⟨hnodup, _, hnew⟩ := List.nodup_append.1 hshaped.nodup
      refine ⟨(reachesAll_iff ring).2 ⟨ring, [], (List.append_nil ring).symm,
        hnodup, nofun, nofun⟩, ?_, fun _ => hnodup⟩
      exact fun hmem _ => absurd rfl (hnew entry hmem entry List.mem_cons_self)
    · rw [← List.append_assoc] at hsplit
      obtain ⟨rfl, hlast⟩ := List.append_inj' hsplit rfl
      cases hlast
      obtain ⟨hbefore, hadmits⟩ := hshaped.of_append
      exact ⟨hbefore.reachesAll, hadmits⟩
  · rintro ⟨hreaches, hadmits⟩
    obtain ⟨front, rest, rfl, hshaped⟩ := (reachesAll_iff ring).1 hreaches
    exact hshaped.append hadmits

end Growing

end Ring

/-! ## Leaving the ring -/

/-- The old place of what stands behind the removed entry's index. -/
theorem place_eq_follower_iff {index length : ℕ} (hindex : index < length)
    (hlength : 2 ≤ length) :
    (if (index + 1) % (length - 1) < index then (index + 1) % (length - 1)
      else (index + 1) % (length - 1) + 1) = (index + 1) % length ↔
      length = 2 := by
  rcases lt_trichotomy (index + 2) length with hbefore | hlast | hend
  · have hlonger : length ≠ 2 := by omega
    rw [Nat.mod_eq_of_lt (by omega : index + 1 < length - 1),
      Nat.mod_eq_of_lt (by omega : index + 1 < length), if_neg (by omega)]
    simp [hlonger]
  · -- the index behind it wraps around to the front
    subst hlast
    have hwrap : (index + 1) % (index + 2 - 1) = 0 := Nat.mod_self _
    rw [hwrap, Nat.mod_eq_of_lt (Nat.lt_succ_self _)]
    split <;> omega
  · have hfront : (index + 1) % length = 0 := by
      rw [show index + 1 = length by omega, Nat.mod_self]
    have hpassed : (index + 1) % (length - 1) = 1 % (length - 1) := by
      rw [show index + 1 = 1 + (length - 1) by omega, Nat.add_mod_right]
    rw [hfront, hpassed]
    rcases hlength.eq_or_lt with rfl | hlonger
    · simp [show index = 1 by omega]
    · rw [Nat.mod_eq_of_lt (by omega : 1 < length - 1)]
      split <;> omega

/-- Behind the removal of an entry, the index behind its old one leads to its
follower only in a ring of two. -/
theorem eraseIdx_next_iff {ring : List Entry} (hnodup : ring.Nodup) {index : ℕ}
    (hindex : index < ring.length) (hlength : 2 ≤ ring.length) :
    (ring.eraseIdx index)[(index + 1) % (ring.length - 1)]? =
        ring[(index + 1) % ring.length]? ↔ ring.length = 2 := by
  have hfollower : (index + 1) % ring.length < ring.length :=
    Nat.mod_lt _ (by omega)
  rw [List.getElem?_eraseIdx, ← apply_ite (ring[·]?), eq_comm,
    List.getElem?_inj hfollower hnodup, eq_comm]
  exact place_eq_follower_iff hindex hlength

end TwitterLike.Rings
