import TwitterLike.Client.Terminal
import TwitterLike.Router.Register
import TwitterLike.Server.Lifecycle

/-!
# The packets of all programs and the size of a message

The encoder checks nothing, so its callers decide whether it stays inside its
array: the client, a server process in all its stages, and the router.
-/

namespace TwitterLike.MessageBounds

open TwitterLike.ByteBuffer
open TwitterLike.PacketFormat
open TwitterLike.PacketCodec
open TwitterLike.Transition
open TwitterLike.Terminal (Client ProfileName Line ClientFits)
open TwitterLike.Lifecycle (Process)

/-! ## The three programs -/

/-- Every packet that the client has passed to `sendPacket` is encoded inside
the array. -/
def ClientEncodes (client : Client) : Prop :=
  ∀ packet ∈ client.sent, Encodes packet

/-- Every packet that the process has passed to `sendPacket`, or passes next, is
encoded inside the array. -/
def ServerEncodes (process : Process) : Prop :=
  ∀ packet, process.Passes packet → Encodes packet

def RouterEncodes (service : Register.Service) : Prop :=
  ∀ packet ∈ service.sent, Encodes packet

/-- A run of one of the three programs. -/
inductive ProgramRun where
  | client (profile : ProfileName) (events : List Terminal.Event)
  | server (addr port : ByteString) (events : List Lifecycle.Event)
  | router (requests : List Register.Request)

/-- Whatever the program passes to `sendPacket` in the run is encoded inside the
array. -/
def ProgramRun.Encodes : ProgramRun → Prop
  | .client profile events =>
      Throughout Terminal.step ClientEncodes (Client.start profile) events
  | .server addr port events =>
      Throughout Lifecycle.step ServerEncodes (Process.start addr port) events
  | .router requests =>
      Throughout Register.Service.step RouterEncodes Register.Service.start
        requests

/-- The client has room for each `FOLLOW` line and its name, a server for its
address, for the ids it greets and for the addresses of the backups. -/
def ProgramRun.HasRoom : ProgramRun → Prop
  | .client profile events =>
      Along Terminal.step Terminal.HasRoom (Client.start profile) events
  | .server addr port events =>
      Along Lifecycle.step Lifecycle.HasRoom (Process.start addr port) events
  | .router _ => True

/-- The encoder stays inside its array exactly in the runs with room. -/
theorem encodes_iff_hasRoom (run : ProgramRun) : run.Encodes ↔ run.HasRoom := by
  cases run with
  | client profile events =>
      apply Iff.trans _ (Terminal.client_fits_iff profile events)
      apply throughout_congr
      exact fun client => forall₂_congr fun packet _ => encodes_iff packet
  | server addr port events =>
      apply Iff.trans _ (Lifecycle.process_fits_iff addr port events)
      apply throughout_congr
      exact fun process => forall₂_congr fun packet _ => encodes_iff packet
  | router requests =>
      apply iff_true_intro
      apply (throughout_congr _ _ requests).2 (Register.router_fits requests)
      exact fun service => forall₂_congr fun packet _ => encodes_iff packet

/-! ## A name that is too long to follow -/

def shortName : ProfileName where
  text := [97, 97, 97, 97, 97]
  noNul := by decide
  atLeast := by decide
  atMost := by decide

/-- A `FOLLOW` line with a name of 4067 bytes. -/
def overlongLine : Line :=
  Terminal.followLine (List.replicate 4067 98) fun hmem =>
    absurd (List.eq_of_mem_replicate hmem) (by decide)

/-- The router's answer with the address of the primary. -/
def primaryResponse : Received :=
  ⟨new .setPrimary [97, 58, 49] [] 0, (decodable_iff _).2 (by decide)⟩

/-- The client logs in and is given the line. -/
def overlongRun : List Terminal.Event :=
  [.located primaryResponse 0, .connected 0, .created, .presented 0,
    .entered overlongLine 0]

/-- The client sends a `FOLLOW` packet of 4097 bytes. -/
theorem overlongRun_overflows :
    ¬ (ProgramRun.client shortName overlongRun).Encodes := by
  have hlength : overlongLine.1.length = 4074 := by
    change (Terminal.followText ++ 32 :: List.replicate 4067 98).length = 4074
    rw [List.length_append, List.length_cons, List.length_replicate]
    rfl
  have hfollow : Terminal.rfind Terminal.followText overlongLine.1 = some 0 :=
    Terminal.rfind_followLine fun hmem =>
      absurd (List.eq_of_mem_replicate hmem) (by decide)
  intro hencodes
  have hfits : Throughout Terminal.step ClientFits (Client.start shortName)
      overlongRun := by
    apply (throughout_congr _ _ _).2 hencodes
    exact fun client => forall₂_congr fun packet _ => (encodes_iff packet).symm
  have halong := (Terminal.client_fits_iff shortName overlongRun).1 hfits
  have hread := (((((halong _ rfl).2 _ rfl).2 _ rfl).2 _ rfl).2 _ rfl).1
  have hroom := hread rfl hfollow
  rw [hlength] at hroom
  exact absurd hroom (by decide)

end TwitterLike.MessageBounds
