import TwitterLike.Client.Terminal
import TwitterLike.Cluster.Roles
import TwitterLike.Router.HandlerThreads

/-!
# Reconnecting

`updateConn` of `client/main.cpp` with its loop, on the answers that the router
gives in all states that its handler threads can bring it to.  The loop asks the
router only once, catches every exception, and holds `updateMutex`.
-/

namespace TwitterLike.Reconnecting

open TwitterLike.ByteBuffer
open TwitterLike.PacketFormat
open TwitterLike.PacketCodec
open TwitterLike.Register
open TwitterLike.Roles (Arguments hostOf portOf portNumber stoi isDigit isSpace
  hostOf_address portOf_address)
open TwitterLike.Terminal (Client)
open TwitterLike.HandlerThreads
open TwitterLike.Transition

/-! ## Calls -/

/-- A call of `updateConn`. -/
structure Call where
  client : Client
  sendOk : Bool
  retry : Bool
  /-- `updateMutex` is locked -/
  locked : Bool

/-- Up to the loop.  With the address of the current primary there is no loop. -/
def Call.start (client : Client) (sendOk : Bool) (response : Packet)
    (time : BitVec 64) : Call where
  client := client.updateConn response time
  sendOk := sendOk
  retry := response.payload ≠ client.primary
  locked := response.payload ≠ client.primary

/-- One turn of the loop, and the end of the function behind the last one. -/
def Call.turn (connects : ByteString → ℕ → Bool) (time : BitVec 64)
    (call : Call) : Call :=
  if call.retry then
    match portNumber (portOf call.client.primary) with
    -- `stoi` has thrown, and nobody looks at the exception
    | none => call
    | some port =>
        if connects (hostOf call.client.primary) port then
          { call with
            client := call.client.reconnect call.sendOk time
            retry := false
            locked := false }
        else call
  else call

/-- The function has left its loop and unlocked `updateMutex`. -/
structure Call.Returned (call : Call) : Prop where
  left : call.retry = false
  unlocked : call.locked = false

/-- The text is split at a colon into a host and a port that `stoi` accepts. -/
def Splits (payload : ByteString) : Prop :=
  payload = hostOf payload ++ 58 :: portOf payload ∧
    (stoi (portOf payload)).isSome = true

/-- The first attempt behind a new address succeeds where connections do. -/
def Reconnects (router : Router) (client : Client) (sendOk : Bool) : Prop :=
  ∀ (time : BitVec 64),
    ∀ response ∈ (router.fromClient (new .getPrimary [] [] time) time).2.1,
      response.payload ≠ client.primary →
        Splits response.payload ∧
        ∀ connects : ByteString → ℕ → Bool,
          (∀ host port, connects host port = true) →
            ((Call.start client sendOk response time).turn connects
              time).Returned

/-! ## Addresses -/

/-- The number that the digits stand for. -/
def decimal (digits : ByteString) : ℕ :=
  digits.foldl (fun value digit => 10 * value + (digit.toNat - 48)) 0

/-- `host:port`, with a decimal port below 65536. -/
structure IsAddress (address : ByteString) : Prop where
  split : ∃ arguments : Arguments, arguments.address = address
  nonempty : portOf address ≠ []
  digits : ∀ byte ∈ portOf address, isDigit byte = true
  below : decimal (portOf address) < 65536

section Addresses

variable {port : ByteString}

theorem foldl_digits (hdigits : ∀ byte ∈ port, isDigit byte = true)
    (start : ℕ) :
    port.foldl (fun (value : ℤ) digit => 10 * value + (digit.toNat - 48)) start =
      (port.foldl (fun value digit => 10 * value + (digit.toNat - 48)) start :
        ℕ) := by
  induction port generalizing start with
  | nil => rfl
  | cons digit port ih =>
      obtain ⟨hdigit, hport⟩ := List.forall_mem_cons.1 hdigits
      have hlow : 48 ≤ digit.toNat := (of_decide_eq_true hdigit).1
      have hcast : 10 * (start : ℤ) + (digit.toNat - 48) =
          (10 * start + (digit.toNat - 48) : ℕ) := by
        push_cast [hlow]
        rfl
      rw [List.foldl_cons, List.foldl_cons, hcast, ih hport]

theorem isDigit_head {digit : Byte} (hdigit : isDigit digit = true) :
    isSpace digit = false ∧ digit ≠ 45 ∧ digit ≠ 43 := by
  have hlow : (48 : Byte) ≤ digit := (of_decide_eq_true hdigit).1
  refine ⟨decide_eq_false ?_, ?_, ?_⟩
  · rintro (rfl | ⟨_, hhigh⟩)
    · exact absurd hlow (by decide)
    · exact absurd (UInt8.le_trans hlow hhigh) (by decide)
  · rintro rfl
    exact absurd hlow (by decide)
  · rintro rfl
    exact absurd hlow (by decide)

/-- `stoi` reads decimal digits. -/
theorem stoi_of_digits (hnonempty : port ≠ [])
    (hdigits : ∀ byte ∈ port, isDigit byte = true)
    (hbelow : decimal port < 65536) : stoi port = some (decimal port : ℤ) := by
  have hvalue : port.foldl
      (fun (value : ℤ) digit => 10 * value + (digit.toNat - 48)) 0 =
        decimal port := foldl_digits hdigits 0
  obtain ⟨digit, rest, rfl⟩ := List.exists_cons_of_ne_nil hnonempty
  obtain ⟨hspace, hminus, hplus⟩ :=
    isDigit_head (hdigits digit List.mem_cons_self)
  have htrimmed : (digit :: rest).dropWhile isSpace = digit :: rest :=
    List.dropWhile_cons_of_neg (by simp [hspace])
  have htaken : (digit :: rest).takeWhile isDigit = digit :: rest :=
    List.takeWhile_eq_self_iff.2 hdigits
  have hrange : -2 ^ 31 ≤ (decimal (digit :: rest) : ℤ) ∧
      (decimal (digit :: rest) : ℤ) < 2 ^ 31 := by
    omega
  have hnegative : ¬ some digit = some 45 := by simp [hminus]
  have hpositive : ¬ some digit = some 43 := by simp [hplus]
  unfold stoi
  simp only [htrimmed, List.head?_cons, hnegative, hpositive, or_self, if_false,
    htaken, hvalue]
  exact if_pos ⟨hnonempty, hrange⟩

variable {address : ByteString}

theorem IsAddress.stoi (haddress : IsAddress address) :
    Roles.stoi (portOf address) = some (decimal (portOf address) : ℤ) :=
  stoi_of_digits haddress.nonempty haddress.digits haddress.below

/-- The `uint16_t` is the port that was meant. -/
theorem IsAddress.portNumber (haddress : IsAddress address) :
    Roles.portNumber (portOf address) = some (decimal (portOf address)) := by
  have hbelow := haddress.below
  rw [Roles.portNumber, haddress.stoi, Option.map_some]
  congr 1
  omega

theorem IsAddress.splits (haddress : IsAddress address) : Splits address := by
  refine ⟨?_, by rw [haddress.stoi]; rfl⟩
  obtain ⟨arguments, rfl⟩ := haddress.split
  rw [hostOf_address, portOf_address]
  rfl

end Addresses

/-! ## What the router stores -/

section Router

variable {Thread : Type}

/-- The packet whose address the thread is on its way to store. -/
def pending : Point → Option Packet
  | .locking packet | .testing packet | .assigning packet | .promoting packet =>
      some packet
  | _ => none

/-- The packet whose address the next step of the thread stores. -/
def storing : Point → Option Packet
  | .assigning packet | .promoting packet => some packet
  | _ => none

/-- The packet whose address this step stores. -/
def stored (system : System Thread) (label : Label Thread) : Option Packet :=
  match label.action with
  | .receive _ => none
  | .proceed => storing (system.threads label.thread)

/-- The step stores no address. -/
def StoresNothing (system : System Thread) (label : Label Thread) : Prop :=
  stored system label = none

instance (system : System Thread) (label : Label Thread) :
    Decidable (StoresNothing system label) :=
  decidable_of_iff ((stored system label).isNone = true) Option.isNone_iff_eq_none

/-- What servers register with is an address. -/
def RegistersAddress (label : Label Thread) : Prop :=
  ∀ packet, label.action = .receive packet →
    packet.cmd = .setPrimaryIfNotExists ∨ packet.cmd = .setPrimary →
      IsAddress packet.payload

/-- Only addresses are on their way to be stored. -/
def HoldsAddresses (system : System Thread) : Prop :=
  ∀ thread, ∀ packet ∈ pending (system.threads thread), IsAddress packet.payload

variable [DecidableEq Thread] {system next final : System Thread}
  {label : Label Thread} {labels : List (Label Thread)}

theorem pending_dispatch {packet other : Packet}
    (hother : other ∈ pending (dispatch packet)) :
    other = packet ∧
      (packet.cmd = .setPrimaryIfNotExists ∨ packet.cmd = .setPrimary) := by
  unfold dispatch at hother
  split at hother
  · next hcmd => exact ⟨(Option.some.inj hother).symm, .inl hcmd⟩
  · next hcmd => exact ⟨(Option.some.inj hother).symm, .inr hcmd⟩
  · cases hother
  · cases hother
  · cases hother

/-- A thread that proceeds stores the address that it is about to store, and
takes up no other. -/
theorem effect_of_proceed {thread : Thread} {time : BitVec 64} {point : Point}
    (hstep : proceed system thread time point = some next) :
    ∃ after, next.threads = Function.update system.threads thread after ∧
      (∀ packet ∈ pending after, packet ∈ pending point) ∧
      next.router.primaryServer =
        ((storing point).map Packet.payload).getD system.router.primaryServer := by
  have hnone (packet : Packet) (hmem : packet ∈ (none : Option Packet)) :
      packet ∈ pending point := absurd hmem (Option.not_mem_none packet)
  cases point with
  | receiving | ended => cases hstep
  | locking packet =>
      obtain ⟨_, hnext⟩ := Option.ite_none_right_eq_some.1 hstep
      cases hnext
      exact ⟨_, rfl, fun _ => id, rfl⟩
  | testing packet =>
      rw [proceed] at hstep
      split at hstep
      · cases hstep
        exact ⟨_, rfl, hnone, rfl⟩
      · cases hstep
        exact ⟨_, rfl, fun _ => id, rfl⟩
  | assigning | confirming | flagging | refusing | unlocking | promoting
  | promoted | reading | answering =>
      cases hstep
      exact ⟨_, rfl, hnone, rfl⟩

theorem primaryServer_of_step (hstep : step system label = some next) :
    next.router.primaryServer =
      ((stored system label).map Packet.payload).getD
        system.router.primaryServer := by
  unfold step at hstep
  split at hstep
  · next haction =>
      rw [stored, haction]
      split at hstep
      · cases hstep
        rfl
      · cases hstep
  · next haction =>
      rw [stored, haction]
      obtain ⟨_, _, _, hprimary⟩ := effect_of_proceed hstep
      exact hprimary

theorem HoldsAddresses.step (hholds : HoldsAddresses system)
    (hregisters : RegistersAddress label)
    (hstep : HandlerThreads.step system label = some next) :
    HoldsAddresses next := by
  have hmoved : ∃ after,
      next.threads = Function.update system.threads label.thread after ∧
        ∀ packet ∈ pending after, IsAddress packet.payload := by
    unfold HandlerThreads.step at hstep
    split at hstep
    · next packet haction =>
        split at hstep
        · cases hstep
          refine ⟨_, rfl, fun other hother => ?_⟩
          obtain ⟨rfl, hcmd⟩ := pending_dispatch hother
          exact hregisters _ haction hcmd
        · cases hstep
    · obtain ⟨after, hthreads, hpending, _⟩ := effect_of_proceed hstep
      exact ⟨after, hthreads, fun packet hpacket =>
        hholds label.thread packet (hpending packet hpacket)⟩
  obtain ⟨after, hthreads, hafter⟩ := hmoved
  intro thread
  rw [hthreads, Function.update_apply]
  split
  · exact hafter
  · exact hholds thread

/-- What a step stores is an address. -/
theorem isAddress_of_step (hholds : HoldsAddresses system)
    (hstores : ¬ StoresNothing system label)
    (hstep : HandlerThreads.step system label = some next) :
    IsAddress next.router.primaryServer := by
  obtain ⟨packet, hpacket⟩ := Option.ne_none_iff_exists'.1 hstores
  rw [primaryServer_of_step hstep, hpacket]
  have hpending : packet ∈ pending (system.threads label.thread) := by
    unfold stored at hpacket
    split at hpacket
    · cases hpacket
    · unfold storing at hpacket
      split at hpacket
      · next hpoint => rw [hpoint]; exact hpacket
      · next hpoint => rw [hpoint]; exact hpacket
      · cases hpacket
  exact hholds label.thread packet hpending

/-- At the end of a run the router has an address if it had one or one has been
stored. -/
theorem isAddress_iff_of_exec (hholds : HoldsAddresses system)
    (hregisters : ∀ label ∈ labels, RegistersAddress label)
    (hrun : exec HandlerThreads.step system labels = some final) :
    IsAddress final.router.primaryServer ↔
      IsAddress system.router.primaryServer ∨
        ¬ Along HandlerThreads.step StoresNothing system labels := by
  induction labels generalizing system with
  | nil =>
      cases hrun
      simp [Along]
  | cons label labels ih =>
      obtain ⟨next, hstep, hrest⟩ := exec_cons_iff.1 hrun
      obtain ⟨hlabel, hlabels⟩ := List.forall_mem_cons.1 hregisters
      rw [ih (hholds.step hlabel hstep) hlabels hrest]
      simp only [Along, hstep, Option.some.injEq, forall_eq', not_and]
      by_cases hnothing : StoresNothing system label
      · have hsame := primaryServer_of_step hstep
        rw [hnothing] at hsame
        rw [hsame]
        simp [hnothing]
      · have haddress := isAddress_of_step hholds hnothing hstep
        simp [hnothing, haddress]

theorem primaryServer_of_exec
    (halong : Along HandlerThreads.step StoresNothing system labels)
    (hrun : exec HandlerThreads.step system labels = some final) :
    final.router.primaryServer = system.router.primaryServer := by
  refine @exec_invariant _ _ HandlerThreads.step _
    (fun state => state.router.primaryServer = system.router.primaryServer)
    ?_ _ _ _ rfl halong hrun
  intro before label next hbefore hnothing hstep
  rw [primaryServer_of_step hstep, hnothing]
  exact hbefore

end Router

/-! ## The loop -/

section Loop

variable {call : Call} {connects : ByteString → ℕ → Bool} {time : BitVec 64}

/-- The loop, on whatever the network does in one turn after the other. -/
def Call.turns (call : Call)
    (attempts : List ((ByteString → ℕ → Bool) × BitVec 64)) : Call :=
  attempts.foldl (fun call attempt => call.turn attempt.1 attempt.2) call

theorem turn_of_connects {port : ℕ} (hretry : call.retry = true)
    (hport : portNumber (portOf call.client.primary) = some port)
    (hconnects : connects (hostOf call.client.primary) port = true) :
    call.turn connects time =
      { call with
        client := call.client.reconnect call.sendOk time
        retry := false
        locked := false } := by
  simp only [Call.turn, hretry, if_true, hport, hconnects]

theorem turn_of_noPort (hport : portNumber (portOf call.client.primary) = none) :
    call.turn connects time = call := by
  simp only [Call.turn, hport, ite_self]

/-- If `stoi` throws once, it throws in every turn, and the mutex stays locked. -/
theorem turns_of_noPort (hport : portNumber (portOf call.client.primary) = none)
    (attempts : List ((ByteString → ℕ → Bool) × BitVec 64)) :
    call.turns attempts = call := by
  apply List.foldl_fixed'
  exact fun attempt => turn_of_noPort hport

variable {router : Router} {client : Client} {sendOk : Bool} {response : Packet}

theorem start_of_other (hother : response.payload ≠ client.primary) :
    (Call.start client sendOk response time).retry = true ∧
      (Call.start client sendOk response time).client.primary =
        response.payload := by
  refine ⟨decide_eq_true hother, ?_⟩
  simp only [Call.start, Client.updateConn, if_neg hother]

/-- A call that returns from its first turn does what the client does in two
steps. -/
theorem exec_terminal_of_turn {response : Received} {port : ℕ} {later : BitVec 64}
    (hended : client.ended = false)
    (hfree : ∀ sendOk, client.con ≠ .reconnecting sendOk)
    (hother : response.1.payload ≠ client.primary)
    (hport : portNumber (portOf response.1.payload) = some port)
    (hconnects : connects (hostOf response.1.payload) port = true) :
    exec Terminal.step client [.located response time, .connected later] =
      some ((Call.start client (client.toServerTh ≠ .notCreated) response.1
        time).turn connects later).client := by
  obtain ⟨hretry, hprimary⟩ := @start_of_other time client
    (client.toServerTh ≠ .notCreated) response.1 hother
  rw [← hprimary] at hport hconnects
  rw [turn_of_connects hretry hport hconnects]
  have hlocated : Terminal.step client (.located response time) =
      some (client.updateConn response.1 time) := by
    cases hcon : client.con with
    | null | connected => simp [Terminal.step, Terminal.stepClient, hended, hcon]
    | reconnecting sendOk => exact absurd hcon (hfree sendOk)
  have hconnected : Terminal.step (client.updateConn response.1 time)
      (.connected later) = some ((client.updateConn response.1 time).reconnect
        (client.toServerTh ≠ .notCreated) later) := by
    simp [Terminal.step, Terminal.stepClient, Client.updateConn, hother, hended]
  exact exec_cons_iff.2 ⟨_, hlocated, exec_cons_iff.2 ⟨_, hconnected, rfl⟩⟩

/-- The router's only answer to `GET_PRIMARY`. -/
theorem reconnects_iff_splits :
    Reconnects router client sendOk ↔
      (router.primaryServer ≠ client.primary → Splits router.primaryServer) := by
  constructor
  · intro hreconnects hother
    exact (hreconnects 0 _ List.mem_cons_self hother).1
  · intro hsplits time response hresponse hother
    obtain rfl := List.mem_singleton.1 hresponse
    refine ⟨hsplits hother, fun connects hconnects => ?_⟩
    obtain ⟨hretry, hprimary⟩ := @start_of_other time _ sendOk _ hother
    obtain ⟨value, hvalue⟩ := Option.isSome_iff_exists.1 (hsplits hother).2
    have hport : portNumber (portOf (Call.start client sendOk
        (new .setPrimary router.primaryServer [] time) time).client.primary) =
          some (value % 2 ^ 16).toNat := by
      rw [hprimary, portNumber]
      exact congrArg (Option.map _) hvalue
    rw [turn_of_connects hretry hport (hconnects _ _)]
    exact ⟨rfl, rfl⟩

theorem not_splits_nil : ¬ Splits [] := by
  rintro ⟨hsplit, _⟩
  cases hsplit

end Loop

/-- Before an address has been stored, a client that asks is caught in the loop,
whatever is listening where. -/
theorem stuck_of_storesNothing {Thread : Type} [DecidableEq Thread]
    {labels : List (Label Thread)} {system : System Thread} {client : Client}
    {sendOk : Bool} {time : BitVec 64} {response : Packet}
    (hnothing : Along step StoresNothing System.start labels)
    (hrun : exec step System.start labels = some system)
    (hresponse : response ∈
      (system.router.fromClient (new .getPrimary [] [] time) time).2.1)
    (hprimary : client.primary ≠ [])
    (attempts : List ((ByteString → ℕ → Bool) × BitVec 64)) :
    ((Call.start client sendOk response time).turns attempts).retry = true ∧
      ((Call.start client sendOk response time).turns attempts).locked = true := by
  obtain rfl := List.mem_singleton.1 hresponse
  have hempty : system.router.primaryServer = [] :=
    primaryServer_of_exec hnothing hrun
  rw [hempty]
  have hother : (new .setPrimary [] [] time).payload ≠ client.primary :=
    hprimary.symm
  obtain ⟨hretry, hasked⟩ := @start_of_other time _ sendOk _ hother
  have hport : portNumber (portOf (Call.start client sendOk
      (new .setPrimary [] [] time) time).client.primary) = none := by
    rw [hasked]
    rfl
  rw [turns_of_noPort hport]
  exact ⟨hretry, decide_eq_true hother⟩

/-- In all states of the router, the client reconnects at once exactly when an
address has been stored or the client knows of none itself. -/
theorem reconnects_iff {Thread : Type} [DecidableEq Thread]
    (labels : List (Label Thread)) (system : System Thread) (client : Client)
    (sendOk : Bool) (hregisters : ∀ label ∈ labels, RegistersAddress label)
    (hrun : exec step System.start labels = some system) :
    Reconnects system.router client sendOk ↔
      ¬ Along step StoresNothing System.start labels ∨ client.primary = [] := by
  have hholds : HoldsAddresses (System.start : System Thread) := fun _ _ => nofun
  rw [reconnects_iff_splits]
  by_cases hnothing : Along step StoresNothing System.start labels
  · have hprimary : system.router.primaryServer = [] :=
      primaryServer_of_exec hnothing hrun
    simp only [hprimary, not_splits_nil, hnothing, not_true_eq_false, false_or,
      imp_false, ne_eq, not_not]
    exact eq_comm
  · have haddress := (isAddress_iff_of_exec hholds hregisters hrun).2
      (.inr hnothing)
    exact iff_of_true (fun _ => haddress.splits) (.inl hnothing)

/-- A client with a name of five letters. -/
def earlyClient : Client :=
  Client.start ⟨[101, 97, 114, 108, 121], by decide, by decide, by decide⟩

/-- The server at `a:1` registers. -/
def registeredLabels : List (Label Unit) :=
  [⟨(), 0, .receive (new .setPrimaryIfNotExists [97, 58, 49] [] 0)⟩,
    ⟨(), 0, .proceed⟩, ⟨(), 0, .proceed⟩, ⟨(), 0, .proceed⟩]

theorem isAddress_a1 : IsAddress [97, 58, 49] where
  split := ⟨⟨[97], [49], by decide⟩, rfl⟩
  nonempty := by decide
  digits := by
    change ∀ byte ∈ [(49 : Byte)], isDigit byte = true
    exact List.forall_mem_singleton.2 rfl
  below := by decide

theorem registersAddress_registeredLabels :
    ∀ label ∈ registeredLabels, RegistersAddress label := by
  simp [registeredLabels, RegistersAddress, new, isAddress_a1]

theorem reconnects_registeredLabels :
    ∃ system, exec step System.start registeredLabels = some system ∧
      Reconnects system.router earlyClient false := by
  obtain ⟨system, hrun⟩ := Option.isSome_iff_exists.1
    (by decide : (exec step System.start registeredLabels).isSome = true)
  exact ⟨system, hrun, (reconnects_iff _ _ _ _ registersAddress_registeredLabels
    hrun).2 (.inl (by decide))⟩

/-- A client that is there before the first server never gets out of the loop. -/
theorem earlyClient_not_reconnects :
    ¬ ∀ (labels : List (Label Unit)) (system : System Unit) (client : Client)
      (sendOk : Bool), (∀ label ∈ labels, RegistersAddress label) →
        exec step System.start labels = some system →
          Reconnects system.router client sendOk := by
  intro hall
  have hreconnects := hall [] System.start earlyClient false nofun rfl
  exact not_splits_nil (reconnects_iff_splits.1 hreconnects (by decide))

end TwitterLike.Reconnecting
