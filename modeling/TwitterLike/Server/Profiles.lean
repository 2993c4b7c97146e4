import TwitterLike.Commons.PacketFormat

/-!
# Profiles

`server/Profile.cpp` and `server/Inbox.cpp`: the state of one profile and the
critical sections under its mutex.  A `Profile *` is the number of the object it
points to, a `ClientConnection *` the number of the connection, with `none` for
a null pointer.
-/

namespace TwitterLike.Profiles

open TwitterLike.ByteBuffer
open TwitterLike.PacketFormat

/-- A non-null `ClientConnection *`. -/
abbrev Conn := ℕ

/-- A non-null `Profile *`. -/
abbrev ProfileRef := ℕ

/-- A received `Packet *`: the packet and, as a ghost, the client request it
comes from, which no operation reads and which forwarding keeps. -/
structure Message where
  origin : ℕ
  packet : Packet
  deriving DecidableEq

/-- The ways in which a call can end other than by returning. -/
inductive Exit where
  /-- waits for a lock that is never released when the call runs alone -/
  | blocked
  /-- `pthread_exit` -/
  | threadExit
  /-- an exception propagates to the caller -/
  | exception
  /-- a null pointer is dereferenced and the process dies -/
  | nullDeref
  deriving DecidableEq

/-! ## Inbox -/

abbrev Inbox := List Message

/-- `Inbox::insertPacket`. -/
def Inbox.insertPacket (inbox : Inbox) (message : Message) : Inbox :=
  inbox ++ [message]

/-! ## Profile -/

structure Profile where
  profileId : ByteString
  sessionsOn : ℤ
  followers : List ProfileRef
  inbox : Inbox
  sessions : List (Option Conn)

/-- `Profile::Profile`. -/
def Profile.new (profileId : ByteString) : Profile where
  profileId := profileId
  sessionsOn := 0
  followers := []
  inbox := []
  sessions := []

/-- One pass over the sessions vector that writes `message` to `conns`, in
order. -/
structure Pass where
  message : Message
  conns : List Conn
  deriving DecidableEq

namespace Profile

/-- `Profile::incSessionsOn`. -/
def incSessionsOn (profile : Profile) (conn : Option Conn) : Profile :=
  { profile with
    sessionsOn := profile.sessionsOn + 1
    sessions := profile.sessions ++ [conn] }

/-- `Profile::decSessionsOn`. -/
def decSessionsOn (profile : Profile) (conn : Option Conn) : Profile :=
  if conn ∈ profile.sessions then
    { profile with
      sessions := profile.sessions.erase conn
      sessionsOn := profile.sessionsOn - 1 }
  else profile

/-- `Profile::updateSessionsOn`. -/
def updateSessionsOn (profile : Profile) (conn : Option Conn) : Profile :=
  { profile with sessions := profile.sessions ++ [conn] }

/-- `Profile::sendOrInsertInbox`: null sessions are skipped. -/
def sendOrInsertInbox (profile : Profile) (message : Message) :
    Profile × List Pass :=
  if profile.sessionsOn > 0 then
    (profile, [⟨message, profile.sessions.reduceOption⟩])
  else
    ({ profile with inbox := profile.inbox.insertPacket message }, [])

/-- The loop of `Profile::fetchInboxContent`: every packet is popped and written
to all sessions, and a null session among them is dereferenced. -/
def drain (sessions : List (Option Conn)) :
    Inbox → Except Exit Unit × List Pass
  | [] => (.ok (), [])
  | message :: rest =>
      if none ∈ sessions then
        (.error .nullDeref,
          [⟨message, (sessions.takeWhile Option.isSome).reduceOption⟩])
      else
        let (exit, passes) := drain sessions rest
        (exit, ⟨message, sessions.reduceOption⟩ :: passes)

/-- `Profile::fetchInboxContent`. -/
def fetchInboxContent (profile : Profile) :
    Except Exit Unit × Profile × List Pass :=
  let (exit, passes) := drain profile.sessions profile.inbox
  (exit, { profile with inbox := [] }, passes)

end Profile

/-! ## What the critical sections leave alone -/

section Fields

variable (profile : Profile) (conn : Option Conn) (message : Message)

@[simp]
theorem incSessionsOn_profileId :
    (profile.incSessionsOn conn).profileId = profile.profileId := rfl

@[simp]
theorem incSessionsOn_followers :
    (profile.incSessionsOn conn).followers = profile.followers := rfl

@[simp]
theorem incSessionsOn_inbox :
    (profile.incSessionsOn conn).inbox = profile.inbox := rfl

@[simp]
theorem incSessionsOn_sessionsOn :
    (profile.incSessionsOn conn).sessionsOn = profile.sessionsOn + 1 := rfl

@[simp]
theorem incSessionsOn_sessions :
    (profile.incSessionsOn conn).sessions = profile.sessions ++ [conn] := rfl

@[simp]
theorem decSessionsOn_profileId :
    (profile.decSessionsOn conn).profileId = profile.profileId := by
  unfold Profile.decSessionsOn
  split <;> rfl

@[simp]
theorem decSessionsOn_followers :
    (profile.decSessionsOn conn).followers = profile.followers := by
  unfold Profile.decSessionsOn
  split <;> rfl

@[simp]
theorem decSessionsOn_inbox :
    (profile.decSessionsOn conn).inbox = profile.inbox := by
  unfold Profile.decSessionsOn
  split <;> rfl

/-- Erasing an absent connection changes nothing, so the two branches leave the
same sessions. -/
@[simp]
theorem decSessionsOn_sessions :
    (profile.decSessionsOn conn).sessions = profile.sessions.erase conn := by
  unfold Profile.decSessionsOn
  split
  · rfl
  · next habsent => exact (List.erase_of_not_mem habsent).symm

theorem decSessionsOn_sessionsOn_of_mem (hmem : conn ∈ profile.sessions) :
    (profile.decSessionsOn conn).sessionsOn = profile.sessionsOn - 1 := by
  rw [Profile.decSessionsOn, if_pos hmem]

theorem decSessionsOn_of_notMem (hmem : conn ∉ profile.sessions) :
    profile.decSessionsOn conn = profile :=
  if_neg hmem

@[simp]
theorem updateSessionsOn_profileId :
    (profile.updateSessionsOn conn).profileId = profile.profileId := rfl

@[simp]
theorem updateSessionsOn_followers :
    (profile.updateSessionsOn conn).followers = profile.followers := rfl

@[simp]
theorem updateSessionsOn_inbox :
    (profile.updateSessionsOn conn).inbox = profile.inbox := rfl

@[simp]
theorem updateSessionsOn_sessionsOn :
    (profile.updateSessionsOn conn).sessionsOn = profile.sessionsOn := rfl

@[simp]
theorem updateSessionsOn_sessions :
    (profile.updateSessionsOn conn).sessions = profile.sessions ++ [conn] :=
  rfl

@[simp]
theorem sendOrInsertInbox_profileId :
    (profile.sendOrInsertInbox message).1.profileId = profile.profileId := by
  unfold Profile.sendOrInsertInbox
  split <;> rfl

@[simp]
theorem sendOrInsertInbox_followers :
    (profile.sendOrInsertInbox message).1.followers = profile.followers := by
  unfold Profile.sendOrInsertInbox
  split <;> rfl

@[simp]
theorem sendOrInsertInbox_sessionsOn :
    (profile.sendOrInsertInbox message).1.sessionsOn =
      profile.sessionsOn := by
  unfold Profile.sendOrInsertInbox
  split <;> rfl

@[simp]
theorem sendOrInsertInbox_sessions :
    (profile.sendOrInsertInbox message).1.sessions = profile.sessions := by
  unfold Profile.sendOrInsertInbox
  split <;> rfl

theorem sendOrInsertInbox_of_online (honline : profile.sessionsOn > 0) :
    profile.sendOrInsertInbox message =
      (profile, [⟨message, profile.sessions.reduceOption⟩]) :=
  if_pos honline

theorem sendOrInsertInbox_of_offline (hoffline : ¬ profile.sessionsOn > 0) :
    profile.sendOrInsertInbox message =
      ({ profile with inbox := profile.inbox ++ [message] }, []) :=
  if_neg hoffline

end Fields

/-- A drained inbox passes on the messages it held. -/
theorem message_mem_of_drain {sessions : List (Option Conn)} {inbox : Inbox}
    {pass : Pass} (hpass : pass ∈ (Profile.drain sessions inbox).2) :
    pass.message ∈ inbox := by
  induction inbox with
  | nil => cases hpass
  | cons message rest ih =>
      rw [Profile.drain] at hpass
      split at hpass
      · rw [List.mem_singleton.1 hpass]
        exact List.mem_cons_self
      · rcases List.mem_cons.1 hpass with rfl | hrest
        · exact List.mem_cons_self
        · exact List.mem_cons_of_mem _ (ih hrest)

/-- Without null sessions the whole inbox is written to all sessions. -/
theorem drain_of_noNull {sessions : List (Option Conn)}
    (hnull : none ∉ sessions) (inbox : Inbox) :
    Profile.drain sessions inbox =
      (.ok (), inbox.map fun message => ⟨message, sessions.reduceOption⟩) := by
  induction inbox with
  | nil => rfl
  | cons message rest ih =>
      rw [Profile.drain, if_neg hnull, ih]
      rfl

theorem fetchInboxContent_of_noNull {profile : Profile}
    (hnull : none ∉ profile.sessions) :
    profile.fetchInboxContent =
      (.ok (), { profile with inbox := [] },
        profile.inbox.map fun message =>
          ⟨message, profile.sessions.reduceOption⟩) := by
  rw [Profile.fetchInboxContent, drain_of_noNull hnull]

end TwitterLike.Profiles
