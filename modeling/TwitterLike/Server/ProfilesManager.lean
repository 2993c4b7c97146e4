import TwitterLike.Server.JsonDump
import TwitterLike.Server.Profiles

/-!
# The profile store

`server/ProfilesManager.cpp`.  The state is the profile objects allocated so
far, the map from ids to objects, the JSON file, and what the process has done
to its connections.  An operation ends with a value or an `Exit`, and in either
case with the state it leaves.
-/

namespace TwitterLike.ProfilesManager

open TwitterLike.ByteBuffer
open TwitterLike.PacketFormat
open TwitterLike.JsonDump
open TwitterLike.Profiles

/-- `MAX_SESSIONS`. -/
def maxSessions : ℤ := 2

/-- Calls of `sendPacket`, in the order of the calls. -/
inductive Output where
  | single (conn : Conn) (packet : Packet)
  /-- a loop over the sessions of a profile -/
  | pass (profile : ProfileRef) (pass : Pass)
  deriving DecidableEq

structure Store where
  objects : ProfileRef → Profile
  /-- the number of profile objects allocated so far -/
  allocated : ℕ
  profiles : Std.TreeMap ByteString ProfileRef
  jsonFile : JsonFile
  outputs : List Output
  closed : List Conn

/-- `ProfilesManager::ProfilesManager`. -/
def Store.empty : Store where
  objects := fun _ => Profile.new []
  allocated := 0
  profiles := ∅
  jsonFile := .absent
  outputs := []
  closed := []

namespace Store

variable (store : Store)

/-! ## Memory and connections -/

def update (ref : ProfileRef) (change : Profile → Profile) : Store :=
  { store with
    objects := Function.update store.objects ref (change (store.objects ref)) }

/-- `new Profile(profileId)`. -/
def allocate (profileId : ByteString) : ProfileRef × Store :=
  (store.allocated,
    { store with
      objects :=
        Function.update store.objects store.allocated (Profile.new profileId)
      allocated := store.allocated + 1 })

/-- `conn->sendPacket(packet)`. -/
def sendPacket (conn : Conn) (packet : Packet) : Store :=
  { store with outputs := store.outputs ++ [.single conn packet] }

/-- The loops over the sessions of one profile that a critical section ran. -/
def sendPasses (ref : ProfileRef) (passes : List Pass) : Store :=
  { store with outputs := store.outputs ++ passes.map (.pass ref) }

/-- `conn->close()`. -/
def closeConn (conn : Conn) : Store :=
  { store with closed := store.closed ++ [conn] }

/-! ## The map -/

/-- `ProfilesManager::getProfileById`. -/
def getProfileById (profileId : ByteString) : Option ProfileRef :=
  store.profiles[profileId]?

/-- `ProfilesManager::hasProfile`. -/
def hasProfile (profileId : ByteString) : Bool :=
  store.profiles.contains profileId

/-- The ids of the followers of an object, in order. -/
def followerIds (ref : ProfileRef) : List ByteString :=
  (store.objects ref).followers.map fun follower =>
    (store.objects follower).profileId

/-- The value `j` built by `ProfilesManager::toJsonFile`. -/
def toJson : JsonObject :=
  store.profiles.toList.map fun entry => (entry.1, store.followerIds entry.2)

/-- `ProfilesManager::toJsonFile`. -/
def toJsonFile : Except Exit Unit × Store :=
  if store.toJson.dumpable then
    (.ok (), { store with
      jsonFile := if store.toJson = [] then .null else .object store.toJson })
  else (.error .exception, { store with jsonFile := .truncated })

/-- `profiles->insert(pair<string, Profile *>(profileId, profile))`. -/
def insertEntry (profileId : ByteString) (ref : ProfileRef) : Store :=
  { store with profiles := store.profiles.insert profileId ref }

/-- `ProfilesManager::insertProfile`. -/
def insertProfile (profileId : ByteString) (ref : ProfileRef) :
    Except Exit Bool × Store :=
  let isInMap := store.profiles.contains profileId
  let inserted := if isInMap then store else store.insertEntry profileId ref
  let written := inserted.toJsonFile
  (written.1.map fun _ => !isInMap, written.2)

/-! ## Following -/

/-- `profileToFollow->getFollowers()->push_back(follower)`. -/
def pushFollower (target follower : ProfileRef) : Store :=
  store.update target fun profile =>
    { profile with followers := profile.followers ++ [follower] }

/-- `ProfilesManager::addFollowerTo`. -/
def addFollowerTo (followed : ByteString) (follower : Option ProfileRef) :
    Except Exit Unit × Store :=
  match follower with
  | none => (.error .nullDeref, store)
  | some follower =>
      if (store.objects follower).profileId = followed then (.ok (), store)
      else match store.getProfileById followed with
        | none => (.ok (), store)
        | some target =>
            if (store.objects follower).profileId ∈ store.followerIds target
            then (.ok (), store)
            else (store.pushFollower target follower).toJsonFile

/-! ## Loading -/

/-- The first loop of `ProfilesManager::fromJsonFile`.  `insert` leaves the entry
of a key that is in the map already. -/
def insertProfiles : Store → JsonObject → Store
  | store, [] => store
  | store, (profileId, _) :: entries =>
      let (ref, allocated) := store.allocate profileId
      insertProfiles
        (if allocated.profiles.contains profileId then allocated
          else allocated.insertEntry profileId ref)
        entries

/-- The inner one of the last loops of `ProfilesManager::fromJsonFile`. -/
def addFollowers (followed : ByteString) :
    Store → List ByteString → Except Exit Unit × Store
  | store, [] => (.ok (), store)
  | store, follower :: followers =>
      match store.addFollowerTo followed (store.getProfileById follower) with
      | (.ok _, added) => addFollowers followed added followers
      | (.error exit, added) => (.error exit, added)

/-- The outer one of the last loops of `ProfilesManager::fromJsonFile`. -/
def addAllFollowers : Store → JsonObject → Except Exit Unit × Store
  | store, [] => (.ok (), store)
  | store, (followed, followers) :: entries =>
      match addFollowers followed store followers with
      | (.ok _, added) => addAllFollowers added entries
      | (.error exit, added) => (.error exit, added)

/-- `ProfilesManager::fromJsonFile`.  The file is closed before the loops, which
rewrite it.  A null value has no items, and what is left of an object by an
exception is no JSON text. -/
def fromJsonFile : Except Exit Unit × Store :=
  match store.jsonFile with
  | .absent | .null => (.ok (), store)
  | .truncated => (.error .exception, store)
  | .object entries => (store.insertProfiles entries).addAllFollowers entries

/-! ## Sending -/

/-- `follower->sendOrInsertInbox(packet)`. -/
def sendOrInsertInbox (ref : ProfileRef) (message : Message) : Store :=
  let result := (store.objects ref).sendOrInsertInbox message
  (store.update ref fun _ => result.1).sendPasses ref result.2

/-- `ProfilesManager::sendToFollowersOf`.  The critical section run for one
follower leaves every followers vector alone, so the loop runs over the vector
as it was at the start. -/
def sendToFollowersOf (profile : Option ProfileRef) (message : Message) :
    Except Exit Unit × Store :=
  match profile with
  | none => (.error .nullDeref, store)
  | some profile =>
      (.ok (), (store.objects profile).followers.foldl
        (fun store follower => store.sendOrInsertInbox follower message) store)

/-! ## Sessions -/

/-- `profile->incSessionsOn(conn)`. -/
def incSessionsOn (ref : ProfileRef) (conn : Option Conn) : Store :=
  store.update ref fun profile => profile.incSessionsOn conn

/-- `profile->decSessionsOn(conn)`. -/
def decSessionsOn (ref : ProfileRef) (conn : Option Conn) : Store :=
  store.update ref fun profile => profile.decSessionsOn conn

/-- `profile->updateSessionsOn(conn)`. -/
def updateSessionsOn (ref : ProfileRef) (conn : Option Conn) : Store :=
  store.update ref fun profile => profile.updateSessionsOn conn

/-- `profile->fetchInboxContent()`. -/
def fetchInboxContent (ref : ProfileRef) : Except Exit Unit × Store :=
  let result := (store.objects ref).fetchInboxContent
  (result.1, (store.update ref fun _ => result.2.1).sendPasses ref result.2.2)

/-- The refusal of a login: `CLOSE_CONN` is sent, the connection is closed and
the thread ends. -/
def refuse (conn : Option Conn) (time : BitVec 64) : Exit × Store :=
  match conn with
  | none => (.nullDeref, store)
  | some conn =>
      (.threadExit,
        (store.sendPacket conn (new .closeConn [] [] time)).closeConn conn)

/-- `ProfilesManager::createProfileIfNotExists` up to its last statement: the
profile that the connection is to be added to. -/
def findOrCreate (profileId : ByteString) (conn : Option Conn)
    (time : BitVec 64) : Except Exit ProfileRef × Store :=
  match store.getProfileById profileId with
  | some ref =>
      if (store.objects ref).sessionsOn = maxSessions then
        let (exit, refused) := store.refuse conn time
        (.error exit, refused)
      else (.ok ref, store)
  | none =>
      let (ref, allocated) := store.allocate profileId
      let inserted := allocated.insertProfile profileId ref
      (inserted.1.map fun _ => ref, inserted.2)

/-- `ProfilesManager::createProfileIfNotExists`. -/
def createProfileIfNotExists (profileId : ByteString) (conn : Option Conn)
    (time : BitVec 64) : Except Exit ProfileRef × Store :=
  match store.findOrCreate profileId conn time with
  | (.ok ref, found) => (.ok ref, found.incSessionsOn ref conn)
  | (.error exit, found) => (.error exit, found)

/-- The inner loop of `ProfilesManager::sendCloseConnToAll`. -/
def closeSessions (time : BitVec 64) :
    Store → List (Option Conn) → Except Exit Unit × Store
  | store, [] => (.ok (), store)
  | store, none :: _ => (.error .nullDeref, store)
  | store, some conn :: sessions =>
      closeSessions time
        ((store.sendPacket conn (new .closeConn [] [] time)).closeConn conn)
        sessions

/-- The outer loop of `ProfilesManager::sendCloseConnToAll`. -/
def closeProfiles (time : BitVec 64) :
    Store → List ProfileRef → Except Exit Unit × Store
  | store, [] => (.ok (), store)
  | store, ref :: refs =>
      match closeSessions time store (store.objects ref).sessions with
      | (.ok _, closed) => closeProfiles time closed refs
      | (.error exit, closed) => (.error exit, closed)

/-- `ProfilesManager::sendCloseConnToAll`. -/
def sendCloseConnToAll (time : BitVec 64) : Except Exit Unit × Store :=
  closeProfiles time store (store.profiles.toList.map Prod.snd)

end Store

end TwitterLike.ProfilesManager
