import TwitterLike.Client.Grammar

/-!
# The loop over the input

`toServer` of `client/main.cpp` with its `getline`: the first line is read in
front of the loop, the next one at the end of a turn that sends a packet, and the
loop looks at the flag of the stream and not at the line.
-/

namespace TwitterLike.InputLoop

open TwitterLike.ByteBuffer
open TwitterLike.PacketFormat
open TwitterLike.PacketCodec
open TwitterLike.Transition
open TwitterLike.Terminal
open TwitterLike.Grammar

/-! ## The input -/

def Line.empty : Line := ⟨[], List.not_mem_nil⟩

/-- What `cin` has to give: lines that end with a newline, and what stands
behind the last newline. -/
structure Input where
  lines : List Line
  rest : Line

/-- The lines of the input, the last one with or without a newline. -/
def Input.all (input : Input) : List Line :=
  if input.rest = Line.empty then input.lines else input.lines ++ [input.rest]

/-! ## The loop -/

structure Loop where
  client : Client
  /-- what `cin` has left -/
  input : Input
  line : Line
  /-- `cin.eof()` -/
  eof : Bool
  /-- the lines that the body has been entered with -/
  handled : List Line

instance (client : Client) : Decidable (ClientFits client) :=
  inferInstanceAs (Decidable (∀ packet ∈ client.sent, Fits packet))

namespace Loop

/-- `getline(cin, line)`.  A text without a newline is read as a line, and the
stream has come to its end. -/
def getline (loop : Loop) : Loop :=
  match loop.input.lines with
  | line :: lines =>
      { loop with line := line, input := { loop.input with lines := lines } }
  | [] =>
      { loop with
        line := loop.input.rest
        input := { loop.input with rest := Line.empty }
        eof := true }

@[simp]
theorem getline_client (loop : Loop) : loop.getline.client = loop.client := by
  unfold getline
  split <;> rfl

/-- `toServer` up to its loop. -/
def start (client : Client) (input : Input) (time : BitVec 64) : Loop :=
  getline
    { client := (client.sendPresentation time).goto .reading
      input := input
      line := Line.empty
      eof := false
      handled := [] }

/-- The lines behind the loop. -/
def leave (loop : Loop) (time : BitVec 64) : Loop :=
  { loop with
    client := (loop.client.sendPacket (new .closeConn [] [] time)).exit }

/-- The body of the loop, without a result where the packet leaves the array of
`toBytes`. -/
def body (loop : Loop) (time : BitVec 64) : Option Loop :=
  let client := loop.client.toServer loop.line.1 time
  let entered := { loop with client := client, handled := loop.handled ++ [loop.line] }
  if ¬ ClientFits client then none
  else if client.ended = false ∧ client.toServerTh = .reading then
    some entered.getline
  else some entered

/-- One turn of `while (!cin.eof())`. -/
def turn (loop : Loop) (time : BitVec 64) : Option Loop :=
  if loop.client.ended ∨ loop.client.toServerTh = .exited then none
  else if loop.eof then some (loop.leave time)
  else loop.body time

end Loop

/-- The thread has handled every line once and in order, has sent `CLOSE_CONN`
as its last packet and has stopped. -/
def Done (input : Input) (loop : Loop) : Prop :=
  loop.handled = input.all ∧
    (∃ time, loop.client.sent.getLast? = some (new .closeConn [] [] time)) ∧
    loop.client.ended = true

/-- Some number of turns is enough, whenever they are taken. -/
def Consumes (client : Client) (input : Input) (time : BitVec 64) : Prop :=
  ∃ turns, ∀ times : List (BitVec 64), times.length = turns →
    ∃ last, exec Loop.turn (Loop.start client input time) times = some last ∧
      Done input last

/-! ## The lines that are sent -/

/-- A packet is made of the line, and it fits. -/
def Sendable (profile : ProfileName) (line : ByteString) : Prop :=
  (followText <+: line ∧ ¬ followText <:+: line.tail ∧ 7 ≤ line.length ∧
    line.length + profile.text.length ≤ 4078) ∨
  (sendText <+: line ∧ ¬ sendText <:+: line.tail ∧ 5 ≤ line.length ∧
    line.length ≤ 5 + maxMsgLen)

instance (profile : ProfileName) (line : ByteString) :
    Decidable (Sendable profile line) :=
  inferInstanceAs (Decidable (_ ∨ _))

section Sendable

variable {profile : ProfileName} {line payload : ByteString} {cmd : CmdType}

theorem sendable_follow_iff {rest : ByteString} :
    Sendable profile (followText ++ rest) ↔
      ¬ followText <:+: (followText ++ rest).tail ∧ rest ≠ [] ∧
        (followText ++ rest).length + profile.text.length ≤ 4078 := by
  have hsend : ¬ sendText <+: followText ++ rest := by
    simp [followText, sendText]
  have hlong : 7 ≤ (followText ++ rest).length ↔ rest ≠ [] := by
    have hlength : followText.length = 6 := rfl
    rw [List.length_append, ← List.length_pos_iff, hlength]
    omega
  rw [Sendable, or_iff_left (fun hsecond => hsend hsecond.1), hlong,
    and_iff_right (List.prefix_append _ _)]

theorem sendable_send_iff {rest : ByteString} :
    Sendable profile (sendText ++ rest) ↔
      ¬ sendText <:+: (sendText ++ rest).tail ∧ rest ≠ [] ∧
        rest.length ≤ 1 + maxMsgLen := by
  have hfollow : ¬ followText <+: sendText ++ rest := by
    simp [followText, sendText]
  have hlong : 5 ≤ (sendText ++ rest).length ↔ rest ≠ [] := by
    rw [List.length_append, ← List.length_pos_iff, show sendText.length = 4 from rfl]
    omega
  have hshort : (sendText ++ rest).length ≤ 5 + maxMsgLen ↔
      rest.length ≤ 1 + maxMsgLen := by
    rw [List.length_append, show sendText.length = 4 from rfl]
    omega
  rw [Sendable, or_iff_right (fun hfirst => hfollow hfirst.1), hlong, hshort,
    and_iff_right (List.prefix_append _ _)]

theorem sendable_iff :
    Sendable profile line ↔
      ∃ cmd payload, read line = .packet cmd payload ∧
        ∀ time, Fits (new cmd payload profile.text time) := by
  by_cases hfollow : followText <+: line
  · obtain ⟨rest, rfl⟩ := hfollow
    rw [sendable_follow_iff, read_follow]
    by_cases hagain : followText <:+: (followText ++ rest).tail
    · simp [hagain]
    rw [if_neg hagain, and_iff_right hagain]
    cases rest with
    | nil => simp
    | cons byte followed =>
        have hcut : substr (followText ++ byte :: followed) 7 = some followed :=
          substr_append followText _
        simp [fits_follow_iff hcut]
  by_cases hsend : sendText <+: line
  · obtain ⟨rest, rfl⟩ := hsend
    rw [sendable_send_iff, read_send]
    by_cases hagain : sendText <:+: (sendText ++ rest).tail
    · simp [hagain]
    rw [if_neg hagain, and_iff_right hagain]
    cases rest with
    | nil => simp
    | cons byte message =>
        rw [List.length_cons, Nat.add_comm, Nat.add_le_add_iff_left]
        by_cases hshort : message.length ≤ maxMsgLen
        · have hfits (time : BitVec 64) : Fits (new .send message profile.text time) :=
            fits_of_short .send profile time hshort
          simp [hshort, not_lt.2 hshort, hfits]
        · simp [hshort, not_le.1 hshort]
  · have hneither : ¬ Sendable profile line :=
      not_or.2 ⟨fun hfirst => hfollow hfirst.1, fun hsecond => hsend hsecond.1⟩
    rw [read_other hfollow hsend]
    refine iff_of_false hneither ?_
    rintro ⟨cmd, payload, hread, _⟩
    cases hread

end Sendable

/-! ## Stages of the loop -/

/-- A client in the loop. -/
structure Going (profile : ProfileName) (client : Client) : Prop where
  named : client.profile = profile
  isOpen : client.isClosed = false
  running : client.ended = false
  fits : ClientFits client
  /-- it has not said goodbye -/
  unfinished : ∀ time, client.sent.getLast? ≠ some (new .closeConn [] [] time)

/-- In front of a `getline`. -/
def asking (input : Input) (client : Client) (line : Line)
    (taken left : List Line) : Loop where
  client := client
  input := { input with lines := left }
  line := line
  eof := false
  handled := taken

/-- Where the loop can be.  While it reads, all lines behind it were sendable;
it does not come back from a line that it refuses, nor from the one at which
`substr` throws. -/
inductive Stage (profile : ProfileName) (input : Input) : Loop → Prop where
  | reads {client line taken left} (hgoing : Going profile client)
      (hreading : client.toServerTh = .reading)
      (hlines : input.lines = taken ++ left)
      (htaken : ∀ line ∈ taken, Sendable profile line.1) :
      Stage profile input (asking input client line taken left).getline
  | spins {loop} (hgoing : Going profile loop.client) (heof : loop.eof = false)
      (hrefused : read loop.line.1 = .refused) : Stage profile input loop
  | crashes {loop} (hended : loop.client.ended = true)
      (hunfinished : ∀ time,
        loop.client.sent.getLast? ≠ some (new .closeConn [] [] time)) :
      Stage profile input loop
  | leaves {loop} (hended : loop.client.ended = true)
      (hhandled : loop.handled = input.lines)
      (hall : ∀ line ∈ input.lines, Sendable profile line.1) :
      Stage profile input loop

section Stages

variable {profile : ProfileName} {input : Input} {loop next : Loop}
  {client : Client} {line previous : Line} {taken left : List Line}
  {time : BitVec 64}

theorem Going.sendPacket (hgoing : Going profile client) {cmd : CmdType}
    {payload sender : ByteString} (hcmd : cmd ≠ .closeConn)
    (hfits : Fits (new cmd payload sender time)) :
    Going profile (client.sendPacket (new cmd payload sender time)) where
  named := hgoing.named
  isOpen := hgoing.isOpen
  running := hgoing.running
  fits := hgoing.fits.sendPacket hfits
  unfinished := by
    intro other hlast
    rw [Client.sendPacket_sent, List.getLast?_concat, Option.some.injEq] at hlast
    exact hcmd (congrArg Packet.cmd hlast)

theorem Going.goto (hgoing : Going profile client) (thread : Thread) :
    Going profile (client.goto thread) where
  named := hgoing.named
  isOpen := hgoing.isOpen
  running := hgoing.running
  fits := hgoing.fits
  unfinished := hgoing.unfinished

/-- Packets are made of commands. -/
theorem cmd_of_read {line payload : ByteString} {cmd : CmdType}
    (hread : read line = .packet cmd payload) : cmd ≠ .closeConn := by
  rintro rfl
  unfold Grammar.read at hread
  split at hread
  · split at hread <;> cases hread
  · split at hread
    · split at hread
      · split at hread <;> cases hread
      · cases hread
    · cases hread

theorem turn_cases (hturn : loop.turn time = some next) :
    loop.client.ended = false ∧
      (loop.eof = true ∧ next = loop.leave time ∨
        loop.eof = false ∧ loop.body time = some next) := by
  rw [Loop.turn, Option.ite_none_left_eq_some, not_or] at hturn
  obtain ⟨⟨hrunning, _⟩, hturn⟩ := hturn
  refine ⟨Bool.eq_false_of_not_eq_true hrunning, ?_⟩
  split at hturn
  · next heof =>
      cases hturn
      exact .inl ⟨heof, rfl⟩
  · next hmore => exact .inr ⟨Bool.eq_false_of_not_eq_true hmore, hturn⟩

theorem turn_reading (hrunning : loop.client.ended = false)
    (hreading : loop.client.toServerTh = .reading) :
    loop.turn time = if loop.eof then some (loop.leave time) else loop.body time := by
  rw [Loop.turn, if_neg (by simp [hrunning, hreading])]

/-- A turn that begins with a line just read is a step of the client. -/
theorem step_of_turn (hreading : loop.client.toServerTh = .reading)
    (hturn : loop.turn time = some next) :
    ∃ event, Terminal.step loop.client event = some next.client := by
  obtain ⟨hrunning, ⟨_, rfl⟩ | ⟨_, hbody⟩⟩ := turn_cases hturn
  · refine ⟨.endOfInput time, ?_⟩
    simp [Terminal.step, stepClient, hrunning, hreading, Loop.leave]
  · refine ⟨.entered loop.line time, ?_⟩
    have hclient : next.client = loop.client.toServer loop.line.1 time := by
      rw [Loop.body, Option.ite_none_left_eq_some] at hbody
      obtain ⟨_, hbody⟩ := hbody
      split at hbody
      · cases hbody
        exact Loop.getline_client _
      · cases hbody
        rfl
    simp [Terminal.step, stepClient, hrunning, hreading, hclient]

theorem toServer_packet (hgoing : Going profile client) {line payload : ByteString}
    {cmd : CmdType} (hread : read line = .packet cmd payload) :
    client.toServer line time =
      client.sendPacket (new cmd payload profile.text time) := by
  rw [toServer_eq time hgoing.isOpen, hread, Reading.turn, hgoing.named]

theorem body_packet (hgoing : Going profile loop.client)
    (hreading : loop.client.toServerTh = .reading) {cmd : CmdType}
    {payload : ByteString} (hread : read loop.line.1 = .packet cmd payload)
    (hfits : Fits (new cmd payload profile.text time)) :
    loop.body time = some
      { loop with
        client := loop.client.sendPacket (new cmd payload profile.text time)
        handled := loop.handled ++ [loop.line] }.getline := by
  have hafter := hgoing.fits.sendPacket hfits
  simp [Loop.body, toServer_packet hgoing hread, hafter, hgoing.running, hreading]

theorem fits_of_body (hgoing : Going profile loop.client) {cmd : CmdType}
    {payload : ByteString} (hread : read loop.line.1 = .packet cmd payload)
    (hbody : loop.body time = some next) :
    Fits (new cmd payload profile.text time) := by
  have hafter :
      ClientFits (loop.client.sendPacket (new cmd payload profile.text time)) := by
    by_contra hover
    simp [Loop.body, toServer_packet hgoing hread, hover] at hbody
  exact hafter _ (List.mem_append_right _ List.mem_cons_self)

theorem body_refused (hgoing : Going profile loop.client)
    (hread : read loop.line.1 = .refused) :
    loop.body time = some
      { loop with
        client := loop.client.goto .spinning
        handled := loop.handled ++ [loop.line] } := by
  have hserved : loop.client.toServer loop.line.1 time =
      loop.client.goto .spinning := by
    rw [toServer_eq time hgoing.isOpen, hread, Reading.turn]
  have hafter : ClientFits (loop.client.goto .spinning) := hgoing.fits
  simp [Loop.body, hserved, hafter]

theorem body_throws (hgoing : Going profile loop.client)
    (hread : read loop.line.1 = .throws) :
    loop.body time = some
      { loop with
        client := loop.client.exit
        handled := loop.handled ++ [loop.line] } := by
  have hserved : loop.client.toServer loop.line.1 time = loop.client.exit := by
    rw [toServer_eq time hgoing.isOpen, hread, Reading.turn]
  have hafter : ClientFits loop.client.exit := hgoing.fits
  simp [Loop.body, hserved, hafter]

/-! ## Steps and runs -/

theorem Stage.body (hgoing : Going profile client)
    (hreading : client.toServerTh = .reading)
    (hlines : input.lines = taken ++ line :: left)
    (htaken : ∀ line ∈ taken, Sendable profile line.1)
    (hbody : (asking input client line taken left).body time = some next) :
    Stage profile input next := by
  cases hread : Grammar.read line.1 with
  | packet cmd payload =>
      have hfits := fits_of_body hgoing hread hbody
      have hsendable : Sendable profile line.1 := by
        refine sendable_iff.2 ⟨cmd, payload, hread, fun other => ?_⟩
        rw [fits_new_iff] at hfits ⊢
        exact hfits
      rw [body_packet hgoing hreading hread hfits] at hbody
      cases hbody
      apply Stage.reads (hgoing.sendPacket (cmd_of_read hread) hfits) hreading
      · rw [hlines, asking, List.append_assoc, List.singleton_append]
      · exact List.forall_mem_append.2
          ⟨htaken, List.forall_mem_singleton.2 hsendable⟩
  | refused =>
      rw [body_refused hgoing hread] at hbody
      cases hbody
      exact .spins (hgoing.goto .spinning) rfl hread
  | throws =>
      rw [body_throws hgoing hread] at hbody
      cases hbody
      exact .crashes rfl hgoing.unfinished

theorem Stage.turn (hstage : Stage profile input loop)
    (hturn : loop.turn time = some next) : Stage profile input next := by
  obtain ⟨hrunning, hcases⟩ := turn_cases hturn
  cases hstage with
  | @reads client previous taken left hgoing hreading hlines htaken =>
      cases left with
      | nil =>
          obtain ⟨_, rfl⟩ | ⟨hmore, _⟩ := hcases
          · rw [List.append_nil] at hlines
            exact .leaves rfl hlines.symm (hlines ▸ htaken)
          · cases hmore
      | cons line left =>
          obtain ⟨hend, _⟩ | ⟨_, hbody⟩ := hcases
          · cases hend
          · exact .body hgoing hreading hlines htaken hbody
  | spins hgoing heof hrefused =>
      obtain ⟨hend, _⟩ | ⟨_, hbody⟩ := hcases
      · cases heof.symm.trans hend
      · rw [body_refused hgoing hrefused] at hbody
        cases hbody
        exact .spins (hgoing.goto .spinning) heof hrefused
  | crashes hended _ => cases hended.symm.trans hrunning
  | leaves hended _ _ => cases hended.symm.trans hrunning

theorem Stage.run (hstage : Stage profile input loop) {last : Loop}
    {times : List (BitVec 64)} (hrun : exec Loop.turn loop times = some last) :
    Stage profile input last :=
  exec_invariant (fun _ _ _ hstage _ hturn => hstage.turn hturn) hstage
    (along_true loop times) hrun

/-- A client in front of its first `getline`. -/
theorem going_presented {client : Client} (hopen : client.isClosed = false)
    (hrunning : client.ended = false) (hfits : ClientFits client)
    (time : BitVec 64) :
    Going client.profile ((client.sendPresentation time).goto .reading) where
  named := rfl
  isOpen := hopen
  running := hrunning
  fits := hfits.sendPresentation
  unfinished := by
    intro other hlast
    rw [Client.goto_sent, Client.sendPresentation, Client.sendPacket_sent,
      List.getLast?_concat] at hlast
    cases hlast

/-- Only a loop that has sent every line gets to its end, and it has left out a
last line without a newline. -/
theorem Stage.sendable_of_done (hstage : Stage profile input loop)
    (hdone : Done input loop) :
    input.rest = Line.empty ∧ ∀ line ∈ input.lines, Sendable profile line.1 := by
  obtain ⟨hhandled, ⟨time, hlast⟩, hended⟩ := hdone
  cases hstage with
  | @reads client previous taken left hgoing _ _ _ =>
      have hrunning := hgoing.running
      cases left <;> cases hended.symm.trans hrunning
  | spins hgoing _ _ => cases hended.symm.trans hgoing.running
  | crashes _ hunfinished => exact absurd hlast (hunfinished time)
  | leaves _ hlines hall =>
      refine ⟨?_, hall⟩
      by_contra hrest
      rw [Input.all, if_neg hrest, hlines] at hhandled
      simp at hhandled

/-- One turn a line, and one at the end of the input. -/
theorem done_of_sendable (hrest : input.rest = Line.empty)
    (hgoing : Going profile client) (hreading : client.toServerTh = .reading)
    (hlines : input.lines = taken ++ left)
    (hleft : ∀ line ∈ left, Sendable profile line.1)
    {times : List (BitVec 64)} (htimes : times.length = left.length + 1) :
    ∃ last, exec Loop.turn (asking input client previous taken left).getline times =
      some last ∧ Done input last := by
  obtain ⟨time, times, rfl⟩ := List.exists_cons_of_length_eq_add_one htimes
  rw [List.length_cons, Nat.add_right_cancel_iff] at htimes
  induction left generalizing client previous taken time times with
  | nil =>
      cases List.length_eq_zero_iff.1 htimes
      have hturn : (asking input client previous taken []).getline.turn time =
          some ((asking input client previous taken []).getline.leave time) :=
        turn_reading hgoing.running hreading
      refine ⟨_, exec_cons_iff.2 ⟨_, hturn, rfl⟩, ?_,
        ⟨time, List.getLast?_concat⟩, rfl⟩
      rw [Input.all, if_pos hrest, hlines, List.append_nil]
      rfl
  | cons line left ih =>
      obtain ⟨hline, hleft⟩ := List.forall_mem_cons.1 hleft
      obtain ⟨cmd, payload, hread, hfits⟩ := sendable_iff.1 hline
      obtain ⟨later, times, rfl⟩ := List.exists_cons_of_length_eq_add_one htimes
      rw [List.length_cons, List.length_cons, Nat.add_right_cancel_iff] at htimes
      have hbody := @body_packet profile (asking input client line taken left) time
        hgoing hreading cmd payload hread (hfits time)
      have hturn :
          (asking input client previous taken (line :: left)).getline.turn time =
            (asking input client line taken left).body time :=
        turn_reading hgoing.running hreading
      have hlines' : input.lines = (taken ++ [line]) ++ left := by
        rw [hlines, List.append_assoc, List.singleton_append]
      obtain ⟨last, hrun, hdone⟩ := @ih _ line _
        (hgoing.sendPacket (cmd_of_read hread) (hfits time)) hreading hlines' hleft
        later times htimes
      exact ⟨last, exec_cons_iff.2 ⟨_, hturn.trans hbody, hrun⟩, hdone⟩

theorem sendable_of_consumes {client : Client} (hopen : client.isClosed = false)
    (hrunning : client.ended = false) (hfits : ClientFits client)
    (hconsumes : Consumes client input time) :
    input.rest = Line.empty ∧
      ∀ line ∈ input.lines, Sendable client.profile line.1 := by
  obtain ⟨turns, hends⟩ := hconsumes
  obtain ⟨last, hrun, hdone⟩ :=
    hends (List.replicate turns time) List.length_replicate
  have hstart : Stage client.profile input (Loop.start client input time) :=
    @Stage.reads _ input _ Line.empty [] input.lines
      (going_presented hopen hrunning hfits time) rfl rfl (List.forall_mem_nil _)
  exact (hstart.run hrun).sendable_of_done hdone

/-- The loop gets through its input exactly when the input ends with a newline
and every line is sendable. -/
theorem consumes_iff {client : Client} (hopen : client.isClosed = false)
    (hrunning : client.ended = false) (hfits : ClientFits client)
    (input : Input) (time : BitVec 64) :
    Consumes client input time ↔
      input.rest = Line.empty ∧
        ∀ line ∈ input.lines, Sendable client.profile line.1 := by
  constructor
  · exact sendable_of_consumes hopen hrunning hfits
  · rintro ⟨hrest, hall⟩
    refine ⟨input.lines.length + 1, fun times htimes => ?_⟩
    exact @done_of_sendable _ input _ Line.empty [] input.lines hrest
      (going_presented hopen hrunning hfits time) rfl rfl hall times htimes

/-- The one line `SEND hi`. -/
def oneMessage : Input where
  lines := [⟨sendText ++ [32, 104, 105], by decide⟩]
  rest := Line.empty

theorem consumes_oneMessage : Consumes typing oneMessage 0 :=
  (consumes_iff rfl rfl (by decide) oneMessage 0).2 ⟨rfl, by decide⟩

/-- An empty line is refused for ever. -/
theorem not_consumes_emptyLine :
    ¬ ∀ client : Client, client.isClosed = false → client.ended = false →
      ClientFits client → ∀ input time, Consumes client input time := by
  intro hconsumes
  have hline := (sendable_of_consumes rfl rfl (by decide)
    (hconsumes typing rfl rfl (by decide) ⟨[Line.empty], Line.empty⟩ 0)).2
  exact absurd (hline Line.empty List.mem_cons_self) (by decide)

end Stages

end TwitterLike.InputLoop
