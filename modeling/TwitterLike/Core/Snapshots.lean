import Mathlib.Tactic

/-!
# Snapshots of a growing log

Handlers add members and entries, each in steps of its own, and then send every
member a snapshot of the log that they have taken at once.  A member knows the
snapshot that it was sent last.  As long as no member is sent a snapshot that is
shorter than its last one, every member is sent the whole log in the end.
-/

namespace TwitterLike.Snapshots

variable {Handler Member Entry : Type*}

/-- Where a handler is. -/
inductive Stage (Entry : Type*) where
  | idle
  /-- behind the addition of its member -/
  | joining (entry : Entry)
  /-- behind the addition of its entry -/
  | announcing
  /-- before the member at `index` -/
  | sending (snapshot : List Entry) (index : ℕ)
  deriving DecidableEq

structure Board (Handler Member Entry : Type*) where
  log : List Entry
  members : List Member
  stage : Handler → Stage Entry
  /-- the snapshots sent to a member so far -/
  sent : Member → List (List Entry)

section Moves

variable [DecidableEq Handler]

def Board.goto (board : Board Handler Member Entry) (handler : Handler)
    (stage : Stage Entry) : Board Handler Member Entry :=
  { board with stage := Function.update board.stage handler stage }

variable {board next : Board Handler Member Entry} {handler : Handler}

theorem goto_stage_self (stage : Stage Entry) :
    (board.goto handler stage).stage handler = stage :=
  Function.update_self ..

theorem goto_stage_of_ne {other : Handler} (hne : other ≠ handler)
    (stage : Stage Entry) :
    (board.goto handler stage).stage other = board.stage other :=
  Function.update_of_ne hne ..

/-- At this stage no member is sent less than it was sent last. -/
def Stage.InOrder (board : Board Handler Member Entry) : Stage Entry → Prop
  | .sending snapshot index =>
      ∀ member ∈ board.members[index]?, ∀ earlier ∈ (board.sent member).getLast?,
        earlier.length ≤ snapshot.length
  | _ => True

omit [DecidableEq Handler] in
instance (board : Board Handler Member Entry) :
    ∀ stage : Stage Entry, Decidable (stage.InOrder board)
  | .sending _ _ => inferInstanceAs (Decidable (∀ _ ∈ _, ∀ _ ∈ _, _ ≤ _))
  | .idle | .joining _ | .announcing => .isTrue trivial

/-- The handler is not about to send a member less than it was sent last. -/
def InOrder (board : Board Handler Member Entry) (handler : Handler) : Prop :=
  (board.stage handler).InOrder board

/-! ## What the steps keep -/

/-- The member has the whole log, or a handler is on the way to send it. -/
inductive Covered (board : Board Handler Member Entry) (index : ℕ)
    (member : Member) : Prop where
  | sent (hlast : (board.sent member).getLast? = some board.log)
  | joining {handler : Handler} {entry : Entry}
      (hstage : board.stage handler = .joining entry)
  | announcing {handler : Handler} (hstage : board.stage handler = .announcing)
  | sending {handler : Handler} {next : ℕ}
      (hstage : board.stage handler = .sending board.log next)
      (hahead : next ≤ index)

structure Current (board : Board Handler Member Entry) : Prop where
  pending : ∀ handler snapshot index,
    board.stage handler = .sending snapshot index → snapshot <+: board.log
  covered : ∀ index member, board.members[index]? = some member →
    Covered board index member

/-- A handler elsewhere covers as before. -/
theorem Covered.goto {index : ℕ} {member : Member}
    (hcovered : Covered board index member) (stage : Stage Entry)
    (hjoining : ∀ entry, board.stage handler ≠ .joining entry)
    (hannouncing : board.stage handler ≠ .announcing)
    (hsending : ∀ reached, board.stage handler = .sending board.log reached →
      reached ≤ index → Covered (board.goto handler stage) index member) :
    Covered (board.goto handler stage) index member := by
  have hother {other : Handler} {reached : Stage Entry} (hne : other ≠ handler)
      (hstage : board.stage other = reached) :
      (board.goto handler stage).stage other = reached :=
    (goto_stage_of_ne hne stage).trans hstage
  cases hcovered with
  | sent hlast => exact .sent hlast
  | @joining other entry hstage =>
      refine .joining (hother ?_ hstage)
      rintro rfl
      exact hjoining entry hstage
  | @announcing other hstage =>
      refine .announcing (hother ?_ hstage)
      rintro rfl
      exact hannouncing hstage
  | @sending other reached hstage hahead =>
      by_cases heq : other = handler
      · subst heq
        exact hsending reached hstage hahead
      · exact .sending (hother heq hstage) hahead

theorem Current.pending_goto (hcurrent : Current board) {stage : Stage Entry}
    (hstage : ∀ snapshot index, stage = .sending snapshot index →
      snapshot <+: board.log)
    {other : Handler} {snapshot : List Entry} {index : ℕ}
    (hother : (board.goto handler stage).stage other = .sending snapshot index) :
    snapshot <+: board.log := by
  by_cases heq : other = handler
  · subst heq
    exact hstage snapshot index ((goto_stage_self stage).symm.trans hother)
  · exact hcurrent.pending other snapshot index
      ((goto_stage_of_ne heq stage).symm.trans hother)

/-! ## Steps -/

variable [DecidableEq Member]

def Board.deliver (board : Board Handler Member Entry) (member : Member)
    (snapshot : List Entry) : Board Handler Member Entry :=
  { board with
    sent := Function.update board.sent member (board.sent member ++ [snapshot]) }

omit [DecidableEq Handler] in
theorem deliver_sent_self (member : Member) (snapshot : List Entry) :
    (board.deliver member snapshot).sent member =
      board.sent member ++ [snapshot] :=
  Function.update_self ..

omit [DecidableEq Handler] in
theorem deliver_sent_of_ne {member other : Member} (hne : other ≠ member)
    (snapshot : List Entry) :
    (board.deliver member snapshot).sent other = board.sent other :=
  Function.update_of_ne hne ..

/-- What one step of a handler does. -/
inductive Move (board : Board Handler Member Entry) (handler : Handler) :
    Board Handler Member Entry → Prop where
  | joined {member : Member} {entry : Entry}
      (hidle : board.stage handler = .idle) :
      Move board handler
        ({ board with members := board.members ++ [member] }.goto handler
          (.joining entry))
  | logged {entry : Entry} (hstage : board.stage handler = .joining entry) :
      Move board handler
        ({ board with log := board.log ++ [entry] }.goto handler .announcing)
  | taken (hstage : board.stage handler = .announcing) :
      Move board handler (board.goto handler (.sending board.log 0))
  | sent {snapshot : List Entry} {index : ℕ} {member : Member}
      (hstage : board.stage handler = .sending snapshot index)
      (hmember : board.members[index]? = some member) :
      Move board handler
        ((board.deliver member snapshot).goto handler
          (.sending snapshot (index + 1)))
  | finished {snapshot : List Entry} {index : ℕ}
      (hstage : board.stage handler = .sending snapshot index)
      (hlast : board.members[index]? = none) :
      Move board handler (board.goto handler .idle)

theorem Current.move (hcurrent : Current board) (horder : InOrder board handler)
    (hmove : Move board handler next) : Current next := by
  cases hmove with
  | @joined member entry hidle =>
      refine ⟨fun other snapshot index =>
        hcurrent.pending_goto (by rintro _ _ ⟨⟩), ?_⟩
      intro index member _
      exact .joining (goto_stage_self _)
  | @logged entry hstage =>
      refine ⟨fun other snapshot index hother => ?_, ?_⟩
      · have hold := hcurrent.pending_goto (by rintro _ _ ⟨⟩) hother
        exact hold.trans (List.prefix_append _ _)
      · intro index member _
        exact .announcing (goto_stage_self _)
  | taken hstage =>
      refine ⟨fun other snapshot index => hcurrent.pending_goto ?_, ?_⟩
      · rintro _ _ ⟨⟩
        exact List.prefix_rfl
      · intro index member _
        exact .sending (goto_stage_self _) (Nat.zero_le index)
  | @sent snapshot index member hstage hmember =>
      have hpart := hcurrent.pending handler snapshot index hstage
      have hsends : (Stage.sending snapshot index).InOrder board :=
        hstage ▸ horder
      refine ⟨fun other snapshot' index' => hcurrent.pending_goto ?_, ?_⟩
      · rintro _ _ ⟨⟩
        exact hpart
      intro position other hother
      have hsent : Covered (board.deliver member snapshot) position other := by
        cases hcurrent.covered position other hother with
        | sent hlast =>
            refine .sent ?_
            by_cases heq : other = member
            · subst heq
              -- the last snapshot was the whole log, and this one is no shorter
              have hlength := hsends other hmember _ hlast
              rw [deliver_sent_self, List.getLast?_concat,
                hpart.eq_of_length_le hlength]
              rfl
            · rw [deliver_sent_of_ne heq]
              exact hlast
        | joining hjoining => exact .joining hjoining
        | announcing hannouncing => exact .announcing hannouncing
        | sending hsending hahead => exact .sending hsending hahead
      have hdelivered : (board.deliver member snapshot).stage handler =
          .sending snapshot index := hstage
      refine hsent.goto _ (by simp [hdelivered]) (by simp [hdelivered]) ?_
      intro reached hreached hahead
      obtain ⟨hwhole, rfl⟩ := Stage.sending.inj (hstage.symm.trans hreached)
      rcases hahead.eq_or_lt with rfl | hbehind
      · cases hmember.symm.trans hother
        refine .sent ?_
        change ((board.deliver member snapshot).sent member).getLast? = some _
        rw [deliver_sent_self, List.getLast?_concat, hwhole]
        rfl
      · have hstill : ((board.deliver member snapshot).goto handler
            (.sending snapshot (index + 1))).stage handler =
              .sending board.log (index + 1) :=
          (goto_stage_self _).trans
            (congrArg (Stage.sending · (index + 1)) hwhole)
        exact .sending hstill hbehind
  | @finished snapshot index hstage hlast =>
      refine ⟨fun other snapshot' index' =>
        hcurrent.pending_goto (by rintro _ _ ⟨⟩), ?_⟩
      intro position member hmember
      refine (hcurrent.covered position member hmember).goto .idle (by simp [hstage])
        (by simp [hstage]) ?_
      -- the handler has passed every member
      intro reached hreached hahead
      cases hstage.symm.trans hreached
      rw [List.getElem?_eq_none_iff] at hlast
      have hlt : position < board.members.length :=
        (List.getElem?_eq_some_iff.1 hmember).1
      omega

end Moves

/-- When all handlers are done, the last snapshot of every member is the whole
log. -/
theorem Current.last_eq_log {board : Board Handler Member Entry}
    (hcurrent : Current board)
    (hsettled : ∀ handler, board.stage handler = .idle) {member : Member}
    (hmember : member ∈ board.members) :
    (board.sent member).getLast? = some board.log := by
  obtain ⟨index, hindex⟩ := List.mem_iff_getElem?.1 hmember
  cases hcurrent.covered index member hindex with
  | sent hlast => exact hlast
  | joining hstage => cases (hsettled _).symm.trans hstage
  | announcing hstage => cases (hsettled _).symm.trans hstage
  | sending hstage _ => cases (hsettled _).symm.trans hstage

end TwitterLike.Snapshots
