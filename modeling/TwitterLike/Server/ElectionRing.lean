import TwitterLike.Cluster.Roles
import TwitterLike.Core.Rings
import TwitterLike.Server.Handlers

/-!
# The election ring

`sendElectionMsg` and `sendElectedMsg` of `server/main.cpp`: a server sends to the
one behind it in `electionServerList`, which the primary fills with the addresses
of the backups that register.
-/

namespace TwitterLike.ElectionRing

open TwitterLike.ByteBuffer
open TwitterLike.PacketFormat
open TwitterLike.PacketCodec
open TwitterLike.Roles
open TwitterLike.Faulting
open TwitterLike.Handlers (Server)
open TwitterLike.Profiles (Conn Message)
open TwitterLike.Transition

/-! ## Messages -/

inductive Fault where
  /-- the process dies of `% electionServerList->size()` -/
  | remainderByZero
  /-- thrown by `at` -/
  | outOfRange
  /-- thrown by `stoi` -/
  | invalidPort
  /-- thrown by the constructor of `Connection` -/
  | refused
  /-- thrown by `receivePacket` -/
  | lost
  deriving DecidableEq

/-- What a server finds outside. -/
structure Network where
  /-- `connect` succeeds -/
  connects : ByteString → ℕ → Bool
  /-- what the router answers, unless it closes the connection -/
  routerResponse : Option Packet

/-- A packet on a new connection to the address. -/
structure Sending where
  address : ByteString
  packet : Packet
  deriving DecidableEq

/-- The globals that the election uses, and what has been sent. -/
structure Elector where
  currentServerAddr : ByteString
  electionServerList : List ByteString
  electionStarted : Bool
  sent : List Sending
  deriving DecidableEq

namespace Elector

variable (elector : Elector)

@[simps]
def send (sendings : List Sending) : Elector :=
  { elector with sent := elector.sent ++ sendings }

/-- `electionServerList->erase(itr)`. -/
@[simps]
def leave (index : ℕ) : Elector :=
  { elector with
    electionServerList := elector.electionServerList.eraseIdx index }

@[simps]
def setStarted (electionStarted : Bool) : Elector :=
  { elector with electionStarted := electionStarted }

theorem send_send (first second : List Sending) :
    (elector.send first).send second = elector.send (first ++ second) := by
  simp [send]

end Elector

abbrev Election := Computation Elector Fault

/-- `"127.0.0.1"`. -/
def routerHost : ByteString := [49, 50, 55, 46, 48, 46, 48, 46, 49]

/-- `"127.0.0.1:3000"`. -/
def routerAddress : ByteString := routerHost ++ [58, 51, 48, 48, 48]

/-- `new Connection(port, addr)`. -/
def newConnection (network : Network) (port : ℕ) (addr : ByteString) :
    Election Unit :=
  if network.connects addr port then pure () else fail .refused

def sendPacket (address : ByteString) (packet : Packet) : Election Unit :=
  modify fun elector => elector.send [⟨address, packet⟩]

/-- `electionServerList->at((index + 1) % electionServerList->size())`. -/
def nextServer (electionServerList : List ByteString) (index : ℕ) :
    Except Fault ByteString :=
  if electionServerList.length = 0 then .error .remainderByZero
  else match electionServerList[(index + 1) % electionServerList.length]? with
    | some addrAndPort => .ok addrAndPort
    | none => .error .outOfRange

/-- `addrAndPort`, read from the list as it is now. -/
def takeNext (index : ℕ) : Election ByteString :=
  fun elector => (nextServer elector.electionServerList index, elector)

/-- The message and `CLOSE_CONN` on a connection to the server behind `index`. -/
def sendToNext (network : Network) (index : ℕ) (packet : Packet)
    (time : BitVec 64) : Election Unit := do
  let addrAndPort ← takeNext index
  match portNumber (portOf addrAndPort) with
  | none => fail .invalidPort
  | some port =>
      newConnection network port (hostOf addrAndPort)
      sendPacket addrAndPort packet
      sendPacket addrAndPort (new .closeConn [] [] time)

def sendElectionMsg (network : Network) (serverAddr : ByteString)
    (time : BitVec 64) : Election Unit := do
  modify fun elector => elector.setStarted true
  let elector ← read id
  let index := elector.electionServerList.idxOf elector.currentServerAddr
  if index ≠ elector.electionServerList.length then
    sendToNext network index (new .election serverAddr [] time) time
  else pure ()

/-- The branch of `sendElectedMsg` for `setPrimary`. -/
def becomePrimary (network : Network) (index : ℕ) (time : BitVec 64) :
    Election Unit := do
  modify fun elector => elector.leave index
  newConnection network 3000 routerHost
  let currentServerAddr ← read Elector.currentServerAddr
  sendPacket routerAddress (new .setPrimary currentServerAddr [] time)
  match network.routerResponse with
  | none => fail .lost
  | some _ => sendPacket routerAddress (new .closeConn [] [] time)

def sendElectedMsg (network : Network) (serverAddr : ByteString)
    (setPrimary : Bool) (time : BitVec 64) : Election Unit := do
  modify fun elector => elector.setStarted false
  let elector ← read id
  let index := elector.electionServerList.idxOf elector.currentServerAddr
  if index ≠ elector.electionServerList.length then
    -- the index is not taken again when the entry is gone
    if setPrimary then becomePrimary network index time else pure ()
    sendToNext network index (new .elected serverAddr [] time) time
  else pure ()

/-! ## What is sent -/

/-- A connection to the address can be made. -/
def Reachable (network : Network) (address : ByteString) : Prop :=
  ∃ port, portNumber (portOf address) = some port ∧
    network.connects (hostOf address) port = true

/-- The router takes a connection and answers on it. -/
def RouterAnswers (network : Network) : Prop :=
  network.connects routerHost 3000 = true ∧ network.routerResponse.isSome = true

section Sends

variable {network : Network} {elector : Elector} {index : ℕ} {packet : Packet}
  {time : BitVec 64} {addrAndPort : ByteString}

theorem nextServer_eq_ok_iff {electionServerList : List ByteString} :
    nextServer electionServerList index = .ok addrAndPort ↔
      electionServerList[(index + 1) % electionServerList.length]? =
        some addrAndPort := by
  unfold nextServer
  split
  · next hempty => simp [List.length_eq_zero_iff.1 hempty]
  · split
    · next hnext => simp [hnext]
    · next hnone => simp [hnone]

/-- On a list with entries there is a next server. -/
theorem exists_nextServer {electionServerList : List ByteString}
    (hne : electionServerList ≠ []) (index : ℕ) :
    ∃ addrAndPort, nextServer electionServerList index = .ok addrAndPort := by
  have hplace := Nat.mod_lt (index + 1) (List.length_pos_iff.2 hne)
  exact ⟨_, nextServer_eq_ok_iff.2 (List.getElem?_eq_getElem hplace)⟩

theorem run_takeNext (hnext : nextServer elector.electionServerList index =
      .ok addrAndPort) :
    (takeNext index).run elector = (.ok addrAndPort, elector) :=
  congrArg (·, elector) hnext

theorem run_sendToNext_of_nil (hnil : elector.electionServerList = []) :
    (sendToNext network index packet time).run elector =
      (.error .remainderByZero, elector) := by
  have hnext : nextServer elector.electionServerList index =
      .error .remainderByZero := by
    rw [nextServer, hnil, List.length_nil, if_pos rfl]
  apply run_bind_of_error
  exact congrArg (·, elector) hnext

theorem run_sendToNext_of_reachable
    (hnext : nextServer elector.electionServerList index = .ok addrAndPort)
    (hreachable : Reachable network addrAndPort) :
    (sendToNext network index packet time).run elector =
      (.ok (), elector.send
        [⟨addrAndPort, packet⟩, ⟨addrAndPort, new .closeConn [] [] time⟩]) := by
  obtain ⟨port, hport, hconnects⟩ := hreachable
  rw [sendToNext, run_bind_of_ok elector (run_takeNext hnext)]
  simp [hport, newConnection, hconnects, sendPacket, Elector.send_send]

/-- Where no connection can be made, nothing is sent. -/
theorem run_sendToNext_of_not_reachable
    (hnext : nextServer elector.electionServerList index = .ok addrAndPort)
    (hreachable : ¬ Reachable network addrAndPort) :
    ∃ fault, fault ≠ .remainderByZero ∧
      (sendToNext network index packet time).run elector =
        (.error fault, elector) := by
  rw [sendToNext, run_bind_of_ok elector (run_takeNext hnext)]
  cases hport : portNumber (portOf addrAndPort) with
  | none => exact ⟨.invalidPort, nofun, rfl⟩
  | some port =>
      have hconnects : network.connects (hostOf addrAndPort) port = false :=
        Bool.eq_false_of_not_eq_true fun htrue => hreachable ⟨port, hport, htrue⟩
      refine ⟨.refused, nofun, ?_⟩
      simp [newConnection, hconnects]

end Sends

/-- The one message of an election goes to the next server. -/
theorem run_sendElectionMsg {network : Network} {elector : Elector}
    {addrAndPort : ByteString} (serverAddr : ByteString) (time : BitVec 64)
    (hmem : elector.currentServerAddr ∈ elector.electionServerList)
    (hnext : nextServer elector.electionServerList
      (elector.electionServerList.idxOf elector.currentServerAddr) =
        .ok addrAndPort)
    (hreachable : Reachable network addrAndPort) :
    (sendElectionMsg network serverAddr time).run elector =
      (.ok (), (elector.setStarted true).send
        [⟨addrAndPort, new .election serverAddr [] time⟩,
          ⟨addrAndPort, new .closeConn [] [] time⟩]) := by
  have hfound : elector.electionServerList.idxOf elector.currentServerAddr ≠
      elector.electionServerList.length :=
    (List.idxOf_lt_length_of_mem hmem).ne
  simp only [sendElectionMsg, run_modify_bind, run_read_bind, id,
    Elector.setStarted_electionServerList, Elector.setStarted_currentServerAddr,
    hfound, ne_eq, not_false_eq_true, if_true]
  exact run_sendToNext_of_reachable hnext hreachable

/-! ## Handing over -/

/-- The messages of the election's end. -/
def electedOf (sendings : List Sending) : List Sending :=
  sendings.filter fun sending => sending.packet.cmd = .elected

section Primary

variable {network : Network} {elector : Elector} {index : ℕ} {time : BitVec 64}

theorem run_becomePrimary_of_answers (hanswers : RouterAnswers network) :
    ∃ sendings, electedOf sendings = [] ∧
      (becomePrimary network index time).run elector =
        (.ok (), (elector.leave index).send sendings) := by
  obtain ⟨hconnects, hresponse⟩ := hanswers
  obtain ⟨response, hresponse⟩ := Option.isSome_iff_exists.1 hresponse
  refine ⟨[⟨routerAddress, new .setPrimary elector.currentServerAddr [] time⟩,
    ⟨routerAddress, new .closeConn [] [] time⟩], rfl, ?_⟩
  simp [becomePrimary, newConnection, sendPacket, hconnects, hresponse,
    Elector.send_send]

/-- Without the router, the function ends in an exception, and nobody hears of
the new primary. -/
theorem run_becomePrimary_of_not_answers (hanswers : ¬ RouterAnswers network) :
    ∃ fault sendings, fault ≠ .remainderByZero ∧ electedOf sendings = [] ∧
      (becomePrimary network index time).run elector =
        (.error fault, (elector.leave index).send sendings) := by
  by_cases hconnects : network.connects routerHost 3000 = true
  · have hresponse : network.routerResponse = none := by
      rw [← Option.not_isSome_iff_eq_none]
      exact fun hsome => hanswers ⟨hconnects, hsome⟩
    refine ⟨.lost,
      [⟨routerAddress, new .setPrimary elector.currentServerAddr [] time⟩],
      nofun, rfl, ?_⟩
    simp [becomePrimary, newConnection, sendPacket, hconnects, hresponse]
  · refine ⟨.refused, [], nofun, rfl, ?_⟩
    simp [becomePrimary, newConnection, hconnects, Elector.send, Elector.leave]

end Primary

/-- The server at `index` in its list becomes the primary without a division by
zero, and tells the one behind it in the ring. -/
structure HandsOver (network : Network) (serverAddr : ByteString)
    (time : BitVec 64) (elector : Elector) (index : ℕ) : Prop where
  divides : ((sendElectedMsg network serverAddr true time).run elector).1 ≠
    .error .remainderByZero
  follower : 2 ≤ elector.electionServerList.length →
    ∃ follower sendings,
      elector.electionServerList[(index + 1) %
        elector.electionServerList.length]? = some follower ∧
      ((sendElectedMsg network serverAddr true time).run elector).2.sent =
        elector.sent ++ sendings ∧
      electedOf sendings = [⟨follower, new .elected serverAddr [] time⟩]

section HandsOver

variable {network : Network} {serverAddr : ByteString} {time : BitVec 64}
  {elector final : Elector} {index : ℕ}

theorem run_sendElectedMsg (hnodup : elector.electionServerList.Nodup)
    (hindex : elector.electionServerList[index]? =
      some elector.currentServerAddr) :
    (sendElectedMsg network serverAddr true time).run elector =
      (becomePrimary network index time >>= fun _ =>
        sendToNext network index (new .elected serverAddr [] time) time).run
          (elector.setStarted false) := by
  obtain ⟨hlt, hcurrent⟩ := List.getElem?_eq_some_iff.1 hindex
  have hplace : elector.electionServerList.idxOf elector.currentServerAddr =
      index := by
    rw [← hcurrent, hnodup.idxOf_getElem]
  simp only [sendElectedMsg, run_modify_bind, run_read_bind, id,
    Elector.setStarted_electionServerList, Elector.setStarted_currentServerAddr,
    hplace, hlt.ne, ne_eq, not_false_eq_true, if_true]

theorem handsOver_iff_of_run {result : Except Fault Unit}
    {sendings : List Sending}
    (hrun : (sendElectedMsg network serverAddr true time).run elector =
      (result, final)) (hsent : final.sent = elector.sent ++ sendings) :
    HandsOver network serverAddr time elector index ↔
      result ≠ .error .remainderByZero ∧
      (2 ≤ elector.electionServerList.length →
        ∃ follower, elector.electionServerList[(index + 1) %
            elector.electionServerList.length]? = some follower ∧
          electedOf sendings = [⟨follower, new .elected serverAddr [] time⟩]) := by
  constructor
  · rintro ⟨hdivides, hfollower⟩
    rw [hrun] at hdivides hfollower
    refine ⟨hdivides, fun hlength => ?_⟩
    obtain ⟨follower, others, hnext, hothers, helected⟩ := hfollower hlength
    cases List.append_cancel_left (hothers.symm.trans hsent)
    exact ⟨follower, hnext, helected⟩
  · rintro ⟨hdivides, hfollower⟩
    refine ⟨by rwa [hrun], fun hlength => ?_⟩
    obtain ⟨follower, hnext, helected⟩ := hfollower hlength
    exact ⟨follower, sendings, hnext, by rw [hrun, hsent], helected⟩

variable (hnodup : elector.electionServerList.Nodup)
  (hindex : elector.electionServerList[index]? = some elector.currentServerAddr)

include hnodup hindex

/-- Once the router has answered, the message goes to the server behind the old
index in the new list. -/
theorem run_sendElectedMsg_of_answers (hanswers : RouterAnswers network) :
    ∃ sendings, electedOf sendings = [] ∧
      (sendElectedMsg network serverAddr true time).run elector =
        (sendToNext network index (new .elected serverAddr [] time) time).run
          (((elector.setStarted false).leave index).send sendings) := by
  obtain ⟨sendings, helected, hbecome⟩ :=
    @run_becomePrimary_of_answers _ (elector.setStarted false) index time hanswers
  refine ⟨sendings, helected, ?_⟩
  rw [run_sendElectedMsg hnodup hindex, run_bind_of_ok _ hbecome]

theorem handsOver_iff_of_not_answers (hanswers : ¬ RouterAnswers network) :
    HandsOver network serverAddr time elector index ↔
      elector.electionServerList.length = 1 := by
  have hlt : index < elector.electionServerList.length :=
    (List.getElem?_eq_some_iff.1 hindex).1
  have hrun := @run_sendElectedMsg network serverAddr time _ _ hnodup hindex
  obtain ⟨fault, sendings, hfault, helected, hbecome⟩ :=
    @run_becomePrimary_of_not_answers _ (elector.setStarted false) index time
      hanswers
  rw [run_bind_of_error _ hbecome] at hrun
  rw [handsOver_iff_of_run hrun rfl, helected]
  constructor
  · rintro ⟨_, hfollower⟩
    by_contra hlength
    obtain ⟨follower, _, hnone⟩ := hfollower (by omega)
    cases hnone
  · intro hlength
    exact ⟨fun herror => hfault (Except.error.inj herror), by omega⟩

/-- The primary that leaves the list empty dies. -/
theorem not_handsOver_of_alone (hanswers : RouterAnswers network)
    (hlength : elector.electionServerList.length = 1) :
    ¬ HandsOver network serverAddr time elector index := by
  have hlt : index < elector.electionServerList.length :=
    (List.getElem?_eq_some_iff.1 hindex).1
  have hempty : elector.electionServerList.eraseIdx index = [] := by
    rw [← List.length_eq_zero_iff, List.length_eraseIdx_of_lt hlt, hlength]
  obtain ⟨sendings, _, hrun⟩ := @run_sendElectedMsg_of_answers _ serverAddr time
    _ _ hnodup hindex hanswers
  rw [run_sendToNext_of_nil hempty] at hrun
  rintro ⟨hdivides, _⟩
  rw [hrun] at hdivides
  exact hdivides rfl

theorem handsOver_iff_of_answers (hanswers : RouterAnswers network)
    (hlength : 2 ≤ elector.electionServerList.length) :
    HandsOver network serverAddr time elector index ↔
      elector.electionServerList.length = 2 ∧
        ∃ follower, elector.electionServerList[(index + 1) %
            elector.electionServerList.length]? = some follower ∧
          Reachable network follower := by
  have hlt : index < elector.electionServerList.length :=
    (List.getElem?_eq_some_iff.1 hindex).1
  have herased : (elector.electionServerList.eraseIdx index).length =
      elector.electionServerList.length - 1 := List.length_eraseIdx_of_lt hlt
  obtain ⟨addrAndPort, hnext⟩ := exists_nextServer
    (List.ne_nil_of_length_pos (by omega :
      0 < (elector.electionServerList.eraseIdx index).length)) index
  -- the new list at the old index
  have hplace := nextServer_eq_ok_iff.1 hnext
  rw [herased] at hplace
  have hring := Rings.eraseIdx_next_iff hnodup hlt hlength
  rw [hplace] at hring
  obtain ⟨sendings, helected, hrun⟩ := @run_sendElectedMsg_of_answers _ serverAddr
    time _ _ hnodup hindex hanswers
  by_cases hreachable : Reachable network addrAndPort
  · rw [@run_sendToNext_of_reachable network
      (((elector.setStarted false).leave index).send sendings) _ _ _ _ hnext
      hreachable, Elector.send_send] at hrun
    have hsends : electedOf (sendings ++
        [⟨addrAndPort, new .elected serverAddr [] time⟩,
          ⟨addrAndPort, new .closeConn [] [] time⟩]) =
        [⟨addrAndPort, new .elected serverAddr [] time⟩] := by
      rw [electedOf, List.filter_append, ← electedOf, helected]
      rfl
    rw [handsOver_iff_of_run hrun rfl, hsends]
    constructor
    · rintro ⟨_, hfollower⟩
      obtain ⟨follower, hold, hsame⟩ := hfollower hlength
      cases hsame
      exact ⟨hring.1 hold.symm, addrAndPort, hold, hreachable⟩
    · rintro ⟨htwo, _⟩
      exact ⟨nofun, fun _ => ⟨addrAndPort, (hring.2 htwo).symm, rfl⟩⟩
  · obtain ⟨fault, hfault, hsent⟩ := @run_sendToNext_of_not_reachable network
      (((elector.setStarted false).leave index).send sendings) index
      (new .elected serverAddr [] time) time _ hnext hreachable
    rw [hsent] at hrun
    rw [handsOver_iff_of_run hrun rfl, helected]
    constructor
    · rintro ⟨_, hfollower⟩
      obtain ⟨follower, _, hnone⟩ := hfollower hlength
      cases hnone
    · rintro ⟨htwo, follower, hold, hfollower⟩
      cases (hring.2 htwo).trans hold
      exact absurd hfollower hreachable

end HandsOver

/-- The index that was taken before the entry is removed leads to the follower
only in a ring of two. -/
theorem sendElectedMsg_handsOver_iff (network : Network) (serverAddr : ByteString)
    (time : BitVec 64) (elector : Elector) (index : ℕ)
    (hnodup : elector.electionServerList.Nodup)
    (hindex : elector.electionServerList[index]? =
      some elector.currentServerAddr) :
    HandsOver network serverAddr time elector index ↔
      (RouterAnswers network ∧ elector.electionServerList.length = 2 ∧
        ∃ follower, elector.electionServerList[(index + 1) %
            elector.electionServerList.length]? = some follower ∧
          Reachable network follower) ∨
      (¬ RouterAnswers network ∧ elector.electionServerList.length = 1) := by
  have hlt : index < elector.electionServerList.length :=
    (List.getElem?_eq_some_iff.1 hindex).1
  by_cases hanswers : RouterAnswers network
  swap
  · rw [handsOver_iff_of_not_answers hnodup hindex hanswers]
    simp [hanswers]
  · simp only [hanswers, true_and, not_true_eq_false, false_and, or_false]
    rcases (by omega : 1 ≤ elector.electionServerList.length).eq_or_lt with
      halone | hlength
    · have hdies := @not_handsOver_of_alone _ serverAddr time _ _ hnodup hindex
        hanswers halone.symm
      simp [hdies, ← halone]
    · exact handsOver_iff_of_answers hnodup hindex hanswers hlength

/-- Every connection is made, and the router answers. -/
def calmNetwork : Network where
  connects := fun _ _ => true
  routerResponse := some (new .ok [] [] 0)

theorem routerAnswers_calmNetwork : RouterAnswers calmNetwork := ⟨rfl, rfl⟩

/-- The server at `a:1` among others. -/
def electorOf (electionServerList : List ByteString) : Elector where
  currentServerAddr := [97, 58, 49]
  electionServerList := electionServerList
  electionStarted := true
  sent := []

theorem handsOver_pair :
    HandsOver calmNetwork [97, 58, 49] 0
      (electorOf [[97, 58, 49], [98, 58, 50]]) 0 := by
  refine (sendElectedMsg_handsOver_iff _ _ _ _ _ (by decide) rfl).2
    (.inl ⟨routerAnswers_calmNetwork, rfl, [98, 58, 50], rfl, 2, ?_, rfl⟩)
  decide

/-- Of three servers, the one behind the follower hears of the new primary. -/
theorem not_handsOver_three :
    ¬ ∀ (network : Network) (serverAddr : ByteString) (time : BitVec 64)
      (elector : Elector) (index : ℕ), elector.electionServerList.Nodup →
        elector.electionServerList[index]? = some elector.currentServerAddr →
          HandsOver network serverAddr time elector index := by
  intro hall
  have hnodup : (electorOf [[97, 58, 49], [98, 58, 50],
      [99, 58, 51]]).electionServerList.Nodup := by decide
  have hhands := hall calmNetwork [97, 58, 49] 0 _ 0 hnodup rfl
  have htwo := ((handsOver_iff_of_answers hnodup rfl routerAnswers_calmNetwork
    (by decide)).1 hhands).1
  cases htwo

/-! ## The way around -/

/-- Where the messages of the server `currentServerAddr` go to. -/
def sendsTo (electionServerList : List ByteString)
    (currentServerAddr : ByteString) : ByteString :=
  match nextServer electionServerList
      (electionServerList.idxOf currentServerAddr) with
  | .ok addrAndPort => addrAndPort
  | .error _ => currentServerAddr

/-- From every server on, a message comes to all others before it is back. -/
def ReachesEverybody (electionServerList : List ByteString) : Prop :=
  ∀ start ∈ electionServerList, ∀ address ∈ electionServerList,
    ∃ count, (sendsTo electionServerList)^[count] start = address ∧
      ∀ earlier, 0 < earlier → earlier ≤ count →
        (sendsTo electionServerList)^[earlier] start ≠ start

theorem sendsTo_eq_next (electionServerList : List ByteString) :
    sendsTo electionServerList = Rings.next electionServerList := by
  funext currentServerAddr
  unfold sendsTo Rings.next
  cases hnext : nextServer electionServerList
      (electionServerList.idxOf currentServerAddr) with
  | ok addrAndPort =>
      rw [nextServer_eq_ok_iff.1 hnext]
      rfl
  | error fault =>
      have hnone : electionServerList[(electionServerList.idxOf
          currentServerAddr + 1) % electionServerList.length]? = none := by
        apply Option.eq_none_iff_forall_ne_some.2
        intro addrAndPort hsome
        rw [nextServer_eq_ok_iff.2 hsome] at hnext
        cases hnext
      rw [hnone]
      rfl

theorem reachesEverybody_iff (electionServerList : List ByteString) :
    ReachesEverybody electionServerList ↔ Rings.ReachesAll electionServerList := by
  unfold ReachesEverybody
  rw [sendsTo_eq_next]
  rfl

/-- An election takes its way: on every server of the list, `sendElectionMsg`
sends the message to `sendsTo`. -/
theorem sendElectionMsg_sendsTo (network : Network) (serverAddr : ByteString)
    (time : BitVec 64) (elector : Elector)
    (hmem : elector.currentServerAddr ∈ elector.electionServerList)
    (hreachable : Reachable network
      (sendsTo elector.electionServerList elector.currentServerAddr)) :
    ((sendElectionMsg network serverAddr time).run elector).2.sent =
      elector.sent ++
        [⟨sendsTo elector.electionServerList elector.currentServerAddr,
          new .election serverAddr [] time⟩,
        ⟨sendsTo elector.electionServerList elector.currentServerAddr,
          new .closeConn [] [] time⟩] := by
  obtain ⟨addrAndPort, hnext⟩ := exists_nextServer (List.ne_nil_of_mem hmem)
    (elector.electionServerList.idxOf elector.currentServerAddr)
  have hsends : sendsTo elector.electionServerList elector.currentServerAddr =
      addrAndPort := by
    rw [sendsTo, hnext]
  rw [hsends] at hreachable ⊢
  rw [run_sendElectionMsg serverAddr time hmem hnext hreachable]
  rfl

/-! ## Registrations -/

/-- A `SET_BACKUP` packet on a new connection. -/
structure Registration where
  conn : Conn
  message : Message
  time : BitVec 64
  setBackup : message.packet.cmd = .setBackup

/-- The address that the backup registers. -/
def Registration.address (registration : Registration) : ByteString :=
  registration.message.packet.payload

/-- The thread of the connection, until `receiveProfileCmd` returns. -/
def register (server : Server) (registration : Registration) : Option Server :=
  match (Handlers.receiveProfileCmd registration.conn registration.message
      registration.time).run server with
  | (.ok _, after) => some after
  | (.error _, _) => none

/-- Nothing is checked, also not whether the address is there. -/
theorem electionServerList_register {server after : Server}
    {registration : Registration}
    (hregister : register server registration = some after) :
    after.electionServerList =
      server.electionServerList ++ [registration.address] := by
  simp only [register, Handlers.receiveProfileCmd, registration.setBackup] at hregister
  cases hregister
  rfl

theorem exists_exec_register (server : Server) (registrations : List Registration) :
    ∃ final, exec register server registrations = some final ∧
      final.electionServerList =
        server.electionServerList ++ registrations.map Registration.address := by
  induction registrations generalizing server with
  | nil => exact ⟨server, rfl, (List.append_nil _).symm⟩
  | cons registration registrations ih =>
      have hreturns : ∃ after, register server registration = some after := by
        simp only [register, Handlers.receiveProfileCmd, registration.setBackup]
        exact ⟨_, rfl⟩
      obtain ⟨after, hregister⟩ := hreturns
      obtain ⟨final, hrun, hlist⟩ := ih after
      refine ⟨final, exec_cons_iff.2 ⟨after, hregister, hrun⟩, ?_⟩
      rw [hlist, electionServerList_register hregister, List.map_cons,
        List.append_assoc, List.singleton_append]

/-- As long as no address is there twice, the address is new or the first one,
and from then on it is not new. -/
def Suits (server : Server) (registration : Registration) : Prop :=
  Rings.Admits server.electionServerList registration.address

instance (server : Server) (registration : Registration) :
    Decidable (Suits server registration) :=
  inferInstanceAs (Decidable (Rings.Admits _ _))

theorem reachesEverybody_register_iff {server after : Server}
    {registration : Registration}
    (hregister : register server registration = some after) :
    ReachesEverybody after.electionServerList ↔
      ReachesEverybody server.electionServerList ∧ Suits server registration := by
  rw [reachesEverybody_iff, electionServerList_register hregister,
    Rings.reachesAll_append_iff, ← reachesEverybody_iff]
  rfl

theorem reachesEverybody_iff_of_exec {server final : Server}
    {registrations : List Registration}
    (hrun : exec register server registrations = some final) :
    ReachesEverybody final.electionServerList ↔
      ReachesEverybody server.electionServerList ∧
        Along register Suits server registrations := by
  induction registrations generalizing server with
  | nil =>
      cases hrun
      exact ⟨fun hreaches => ⟨hreaches, trivial⟩, And.left⟩
  | cons registration registrations ih =>
      obtain ⟨next, hnext, hrest⟩ := exec_cons_iff.1 hrun
      rw [ih hrest, reachesEverybody_register_iff hnext, and_assoc]
      simp only [Along, hnext, Option.some.injEq, forall_eq']

/-- Whatever the registrations, the list of the primary is a ring that reaches
everybody exactly when every registration has suited it. -/
theorem electionRing_reachesEverybody_iff (registrations : List Registration) :
    ∃ final, exec register Server.new registrations = some final ∧
      final.electionServerList = registrations.map Registration.address ∧
      (ReachesEverybody final.electionServerList ↔
        Along register Suits Server.new registrations) := by
  obtain ⟨final, hrun, hlist⟩ := exists_exec_register Server.new registrations
  have hstart : ReachesEverybody Server.new.electionServerList := nofun
  refine ⟨final, hrun, hlist, ?_⟩
  rw [reachesEverybody_iff_of_exec hrun]
  exact ⟨And.right, fun halong => ⟨hstart, halong⟩⟩

/-- A backup that registers the address. -/
def registrationOf (conn : Conn) (address : ByteString) : Registration where
  conn := conn
  message := ⟨0, new .setBackup address [] 0⟩
  time := 0
  setBackup := rfl

/-- The first backup registers again before the third one does. -/
def restartedBackup : List Registration :=
  [registrationOf 11 [97, 58, 49], registrationOf 12 [98, 58, 50],
    registrationOf 13 [97, 58, 49], registrationOf 14 [99, 58, 51]]

/-- The message never comes to the third backup. -/
theorem restartedBackup_not_reachesEverybody :
    ¬ ∀ (registrations : List Registration) (final : Server),
      exec register Server.new registrations = some final →
        ReachesEverybody final.electionServerList := by
  intro hall
  obtain ⟨final, hrun, _⟩ := exists_exec_register Server.new restartedBackup
  have halong := ((reachesEverybody_iff_of_exec hrun).1 (hall _ _ hrun)).2
  revert halong
  decide

end TwitterLike.ElectionRing
