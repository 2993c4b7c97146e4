import TwitterLike.Commons.PacketCodec
import TwitterLike.Core.Transition

/-!
# The client

`client/main.cpp`: the thread that turns input lines into packets, the search
for the primary, and the signal handler.  The packets passed to `sendPacket` are
logged.
-/

namespace TwitterLike.Terminal

open TwitterLike.ByteBuffer
open TwitterLike.PacketFormat
open TwitterLike.PacketCodec
open TwitterLike.Transition

/-! ## Input -/

/-- `MAX_MSG_LEN`. -/
def maxMsgLen : ℕ := 128

/-- `argv[1]` as `main` lets it through. -/
structure ProfileName where
  text : ByteString
  noNul : 0 ∉ text
  atLeast : 5 ≤ text.length
  atMost : text.length ≤ 21

/-- What `getline` leaves in `line`. -/
abbrev Line := {line : ByteString // 10 ∉ line}

/-- `line.rfind(pattern)`: the position of the last occurrence. -/
def rfind (pattern : ByteString) : ByteString → Option ℕ
  | [] => if pattern = [] then some 0 else none
  | byte :: rest =>
      match rfind pattern rest with
      | some pos => some (pos + 1)
      | none => if pattern.isPrefixOf (byte :: rest) then some 0 else none

/-- `line.substr(pos)`, without a result where it throws. -/
def substr (line : ByteString) (pos : ℕ) : Option ByteString :=
  if pos ≤ line.length then some (line.drop pos) else none

/-- `"FOLLOW"`. -/
def followText : ByteString := [70, 79, 76, 76, 79, 87]

/-- `"SEND"`. -/
def sendText : ByteString := [83, 69, 78, 68]

/-! ## States -/

/-- `con`. -/
inductive Link where
  | null
  | connected
  /-- closed by `updateConn`, which has not connected again -/
  | reconnecting (sendOk : Bool)
  deriving DecidableEq

/-- Where the thread `toServer` is. -/
inductive Thread where
  | notCreated
  /-- before `sendPresentation` -/
  | presenting
  /-- in `getline` -/
  | reading
  /-- in the loop with a line that it refuses again and again -/
  | spinning
  | exited
  deriving DecidableEq

structure Client where
  profile : ProfileName
  primary : ByteString
  con : Link
  toServerTh : Thread
  /-- the process has ended -/
  ended : Bool
  sent : List Packet

/-- A client that has connected to the router. -/
def Client.start (profile : ProfileName) : Client where
  profile := profile
  -- "random:primary"
  primary := [114, 97, 110, 100, 111, 109, 58, 112, 114, 105, 109, 97, 114, 121]
  con := .null
  toServerTh := .notCreated
  ended := false
  sent := []

namespace Client

variable (client : Client)

@[simps]
def sendPacket (packet : Packet) : Client :=
  { client with sent := client.sent ++ [packet] }

@[simps]
def goto (thread : Thread) : Client := { client with toServerTh := thread }

@[simps]
def exit : Client := { client with ended := true }

/-- `con->isClosed()`. -/
def isClosed : Bool :=
  match client.con with
  | .reconnecting _ => true
  | _ => false

/-- `sendPresentation`. -/
def sendPresentation (time : BitVec 64) : Client :=
  client.sendPacket (new .profile client.profile.text [] time)

/-- `updateConn` up to its loop. -/
def updateConn (response : Packet) (time : BitVec 64) : Client :=
  let asked := client.sendPacket (new .getPrimary [] [] time)
  if response.payload = client.primary then asked
  else { asked with
    primary := response.payload
    con := .reconnecting (client.toServerTh ≠ .notCreated) }

/-- The end of the loop of `updateConn`. -/
def reconnect (sendOk : Bool) (time : BitVec 64) : Client :=
  let connected := { client with con := .connected }
  if sendOk then
    connected.sendPacket (new .ok [] client.profile.text time)
  else connected

/-- One turn of the loop of `toServer`.  A refused line is not followed by
another `getline`, and `substr` throws where nobody catches. -/
def toServer (line : ByteString) (time : BitVec 64) : Client :=
  if client.isClosed then client.goto .exited
  else if rfind followText line = some 0 then
    match substr line 7 with
    | some followed =>
        client.sendPacket (new .follow followed client.profile.text time)
    | none => client.exit
  else if rfind sendText line = some 0 then
    match substr line 5 with
    | some message =>
        if message.length > maxMsgLen then client.goto .spinning
        else client.sendPacket (new .send message client.profile.text time)
    | none => client.exit
  else client.goto .spinning

/-- `interruptionHandler`: one packet for the server and for the router. -/
def interruptionHandler (time : BitVec 64) : Client :=
  let packet := new .closeConn [] client.profile.text time
  ((client.sendPacket packet).sendPacket packet).exit

end Client

/-! ## Steps -/

inductive Event where
  /-- `updateConn` gets this response from the router -/
  | located (response : Received) (time : BitVec 64)
  /-- `updateConn` has connected -/
  | connected (time : BitVec 64)
  /-- `main` creates the threads -/
  | created
  | presented (time : BitVec 64)
  | entered (line : Line) (time : BitVec 64)
  | endOfInput (time : BitVec 64)
  /-- `fromServer` receives `CLOSE_CONN` -/
  | closeConn
  | interrupted (time : BitVec 64)

def stepClient (client : Client) : Event → Option Client
  | .located response time =>
      match client.con with
      -- `updateMutex` is held
      | .reconnecting _ => none
      | _ => some (client.updateConn response.1 time)
  | .connected time =>
      match client.con with
      | .reconnecting sendOk => some (client.reconnect sendOk time)
      | _ => none
  | .created =>
      if client.toServerTh = .notCreated ∧ client.con = .connected then
        some (client.goto .presenting)
      else none
  | .presented time =>
      if client.toServerTh = .presenting then
        some ((client.sendPresentation time).goto .reading)
      else none
  | .entered line time =>
      if client.toServerTh = .reading then some (client.toServer line.1 time)
      else none
  | .endOfInput time =>
      if client.toServerTh = .reading then
        some (client.sendPacket (new .closeConn [] [] time)).exit
      else none
  | .closeConn =>
      if client.toServerTh ≠ .notCreated ∧ client.con = .connected then
        some client.exit
      else none
  | .interrupted time => some (client.interruptionHandler time)

def step (client : Client) (event : Event) : Option Client :=
  if client.ended then none else stepClient client event

/-! ## Bounds -/

/-- A line that is made into a `FOLLOW` packet leaves room for the profile
name. -/
def HasRoom (client : Client) : Event → Prop
  | .entered line _ =>
      client.isClosed = false → rfind followText line.1 = some 0 →
        line.1.length + client.profile.text.length ≤ 4078
  | _ => True

def ClientFits (client : Client) : Prop :=
  ∀ packet ∈ client.sent, Fits packet

section Bounds

variable {client next : Client} {line : ByteString} {time : BitVec 64}

theorem length_of_substr {pos : ℕ} {rest : ByteString}
    (hsubstr : substr line pos = some rest) :
    rest.length + pos = line.length := by
  unfold substr at hsubstr
  split at hsubstr
  · cases hsubstr
    rw [List.length_drop]
    omega
  · cases hsubstr

/-- Without its first byte a pattern cannot occur. -/
theorem rfind_of_notMem {byte : Byte} {pattern text : ByteString}
    (habsent : byte ∉ text) : rfind (byte :: pattern) text = none := by
  induction text with
  | nil => rfl
  | cons other rest ih =>
      have hne : byte ≠ other := fun heq => habsent (heq ▸ List.mem_cons_self)
      have hrest : byte ∉ rest := fun hmem =>
        habsent (List.mem_cons_of_mem _ hmem)
      simp [rfind, ih hrest, List.isPrefixOf, hne]

/-- The line that asks to follow a name. -/
def followLine (name : ByteString) (hline : 10 ∉ name) : Line :=
  ⟨followText ++ 32 :: name, by simp [followText, hline]⟩

theorem rfind_followLine {name : ByteString} {hline : 10 ∉ name}
    (habsent : 70 ∉ name) : rfind followText (followLine name hline).1 = some 0 := by
  have hrest : rfind followText ([79, 76, 76, 79, 87, 32] ++ name) = none := by
    apply rfind_of_notMem
    simp [habsent]
  change rfind followText (70 :: ([79, 76, 76, 79, 87, 32] ++ name)) = some 0
  rw [rfind, hrest]
  rfl

/-- A short text and the profile name fit. -/
theorem fits_of_short (cmd : CmdType) {payload : ByteString}
    (profile : ProfileName) (time : BitVec 64)
    (hshort : payload.length ≤ maxMsgLen) :
    Fits (new cmd payload profile.text time) := by
  have hname := profile.atMost
  have hlength : payload.length ≤ 128 := hshort
  rw [fits_new_iff]
  omega

/-- A `FOLLOW` packet is as long as its line and the name, less the command and
a blank. -/
theorem fits_follow_iff {profile : ProfileName} {followed : ByteString}
    (hsubstr : substr line 7 = some followed) :
    Fits (new .follow followed profile.text time) ↔
      line.length + profile.text.length ≤ 4078 := by
  have hlength := length_of_substr hsubstr
  rw [fits_new_iff]
  omega

theorem clientFits_start (profile : ProfileName) :
    ClientFits (Client.start profile) := by
  intro packet hpacket
  cases hpacket

theorem ClientFits.sendPacket (hfits : ClientFits client) {packet : Packet}
    (hpacket : Fits packet) : ClientFits (client.sendPacket packet) := by
  intro other hother
  rcases List.mem_append.1 hother with hbefore | hnew
  · exact hfits other hbefore
  · rwa [List.mem_singleton.1 hnew]

theorem ClientFits.sendPresentation (hfits : ClientFits client) :
    ClientFits (client.sendPresentation time) := by
  apply hfits.sendPacket
  rw [fits_new_iff, List.length_nil]
  exact client.profile.atMost.trans (by norm_num)

theorem ClientFits.updateConn (hfits : ClientFits client) (response : Packet) :
    ClientFits (client.updateConn response time) := by
  have hasked := hfits.sendPacket (fits_new_nil .getPrimary time)
  unfold Client.updateConn
  dsimp only
  split
  · exact hasked
  · exact hasked

theorem ClientFits.reconnect (hfits : ClientFits client) (sendOk : Bool) :
    ClientFits (client.reconnect sendOk time) := by
  have hconnected : ClientFits { client with con := .connected } := hfits
  unfold Client.reconnect
  dsimp only
  split
  · exact hconnected.sendPacket
      (fits_of_short .ok client.profile time (Nat.zero_le _))
  · exact hconnected

theorem ClientFits.interruptionHandler (hfits : ClientFits client) :
    ClientFits (client.interruptionHandler time) := by
  have hclose : Fits (new .closeConn [] client.profile.text time) :=
    fits_of_short .closeConn client.profile time (Nat.zero_le _)
  exact (hfits.sendPacket hclose).sendPacket hclose

theorem ClientFits.toServer (hfits : ClientFits client)
    (hroom : client.isClosed = false → rfind followText line = some 0 →
      line.length + client.profile.text.length ≤ 4078) :
    ClientFits (client.toServer line time) := by
  unfold Client.toServer
  split
  · exact hfits
  · next hopen =>
      split
      · next hfollow =>
          split
          · next followed hsubstr =>
              apply hfits.sendPacket
              rw [fits_follow_iff hsubstr]
              exact hroom (Bool.eq_false_of_not_eq_true hopen) hfollow
          · exact hfits
      · split
        · split
          · split
            · exact hfits
            · next hshort =>
                exact hfits.sendPacket
                  (fits_of_short .send client.profile time (not_lt.1 hshort))
          · exact hfits
        · exact hfits

theorem ClientFits.step (hfits : ClientFits client) {event : Event}
    (hroom : HasRoom client event)
    (hstep : Terminal.step client event = some next) : ClientFits next := by
  simp only [Terminal.step, Option.ite_none_left_eq_some] at hstep
  replace hstep := hstep.2
  cases event with
  | located response time =>
      simp only [stepClient] at hstep
      split at hstep
      · cases hstep
      · cases hstep
        exact hfits.updateConn response.1
  | connected time =>
      simp only [stepClient] at hstep
      split at hstep
      · cases hstep
        exact hfits.reconnect _
      · cases hstep
  | created =>
      obtain ⟨_, hnext⟩ := Option.ite_none_right_eq_some.1 hstep
      cases hnext
      exact hfits
  | presented time =>
      obtain ⟨_, hnext⟩ := Option.ite_none_right_eq_some.1 hstep
      cases hnext
      exact hfits.sendPresentation
  | entered line time =>
      obtain ⟨_, hnext⟩ := Option.ite_none_right_eq_some.1 hstep
      cases hnext
      exact hfits.toServer hroom
  | endOfInput time =>
      obtain ⟨_, hnext⟩ := Option.ite_none_right_eq_some.1 hstep
      cases hnext
      exact hfits.sendPacket (fits_new_nil .closeConn time)
  | closeConn =>
      obtain ⟨_, hnext⟩ := Option.ite_none_right_eq_some.1 hstep
      cases hnext
      exact hfits
  | interrupted time =>
      cases hstep
      exact hfits.interruptionHandler

/-- A `FOLLOW` line without room is sent all the same. -/
theorem overflow_of_follow (hopen : client.isClosed = false)
    (hfollow : rfind followText line = some 0)
    (hlong : ¬ line.length + client.profile.text.length ≤ 4078) :
    ∃ packet ∈ (client.toServer line time).sent, ¬ Fits packet := by
  have hname := client.profile.atMost
  have hsubstr : substr line 7 = some (line.drop 7) := if_pos (by omega)
  have hsent : client.toServer line time = client.sendPacket
      (new .follow (line.drop 7) client.profile.text time) := by
    simp [Client.toServer, hopen, hfollow, hsubstr]
  rw [hsent]
  refine ⟨_, List.mem_append_right _ List.mem_cons_self, ?_⟩
  rwa [fits_follow_iff hsubstr]

/-- A step without room passes a packet that does not fit. -/
theorem overflow_of_step {event : Event} (hroom : ¬ HasRoom client event)
    (hstep : step client event = some next) :
    ∃ packet ∈ next.sent, ¬ Fits packet := by
  cases event with
  | entered line time =>
      simp only [HasRoom, Classical.not_imp] at hroom
      obtain ⟨hopen, hfollow, hlong⟩ := hroom
      simp only [step, Option.ite_none_left_eq_some] at hstep
      obtain ⟨_, hnext⟩ := Option.ite_none_right_eq_some.1 hstep.2
      cases hnext
      exact overflow_of_follow hopen hfollow hlong
  | _ => exact absurd trivial hroom

/-- In a run of the client every packet passed to `sendPacket` fits exactly when
every `FOLLOW` line leaves room for the name. -/
theorem client_fits_iff (profile : ProfileName) (events : List Event) :
    Throughout step ClientFits (Client.start profile) events ↔
      Along step HasRoom (Client.start profile) events := by
  apply throughout_iff_along _ _ _ (clientFits_start profile)
  · exact fun client hfits => hfits
  · exact fun client event next hfits hroom hstep => hfits.step hroom hstep
  · intro client event next _ hroom hstep hfits
    obtain ⟨packet, hpacket, hover⟩ := overflow_of_step hroom hstep
    exact hover (hfits packet hpacket)

end Bounds

end TwitterLike.Terminal
