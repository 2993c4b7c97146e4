import Mathlib.Data.List.Infix
import TwitterLike.Client.Terminal

/-!
# The commands of the client

Which lines are commands, and which ones `toServer` takes for commands.  The
words are looked for by their last occurrence and the argument is cut off at a
fixed place, so a word that occurs twice is not found, and what stands behind a
word is not looked at.
-/

namespace TwitterLike.Grammar

open TwitterLike.ByteBuffer
open TwitterLike.PacketFormat
open TwitterLike.Terminal

/-! ## The last occurrence -/

section Occurrences

variable {pattern text : ByteString}

theorem rfind_eq_none_iff : rfind pattern text = none ↔ ¬ pattern <:+: text := by
  induction text with
  | nil =>
      rw [rfind, List.infix_nil]
      split
      · next hempty => simp [hempty]
      · next hne => simp [hne]
  | cons byte rest ih =>
      rw [rfind, List.infix_cons_iff, not_or, ← ih, ← List.isPrefixOf_iff_prefix]
      cases rfind pattern rest with
      | some pos => simp
      | none => simp

/-- The last occurrence is at the start exactly when the text starts with the
pattern and the rest of it does not contain the pattern again. -/
theorem rfind_eq_zero_iff (hpattern : pattern ≠ []) :
    rfind pattern text = some 0 ↔
      pattern <+: text ∧ ¬ pattern <:+: text.tail := by
  cases text with
  | nil => simp [rfind, hpattern]
  | cons byte rest =>
      rw [List.tail_cons, ← rfind_eq_none_iff, ← List.isPrefixOf_iff_prefix, rfind]
      cases rfind pattern rest with
      | some pos => simp
      | none => simp

end Occurrences

/-! ## What the loop makes of a line -/

inductive Reading where
  | packet (cmd : CmdType) (payload : ByteString)
  /-- a text for the terminal and no packet -/
  | refused
  /-- `substr` throws -/
  | throws
  deriving DecidableEq

/-- The branches of the loop of `toServer`. -/
def read (line : ByteString) : Reading :=
  if rfind followText line = some 0 then
    match substr line 7 with
    | some followed => .packet .follow followed
    | none => .throws
  else if rfind sendText line = some 0 then
    match substr line 5 with
    | some message =>
        if message.length > maxMsgLen then .refused else .packet .send message
    | none => .throws
  else .refused

/-- What the loop does with it. -/
def Reading.turn (client : Client) (time : BitVec 64) : Reading → Client
  | .packet cmd payload =>
      client.sendPacket (new cmd payload client.profile.text time)
  | .refused => client.goto .spinning
  | .throws => client.exit

section Turning

variable {client : Client} (time : BitVec 64)

theorem toServer_eq (hopen : client.isClosed = false) (line : ByteString) :
    client.toServer line time = (read line).turn client time := by
  have hfirst : ¬ client.isClosed = true := by simp [hopen]
  rw [Client.toServer, if_neg hfirst, read]
  by_cases hfollow : rfind followText line = some 0
  · rw [if_pos hfollow, if_pos hfollow]
    cases substr line 7 <;> rfl
  rw [if_neg hfollow, if_neg hfollow]
  by_cases hsend : rfind sendText line = some 0
  · rw [if_pos hsend, if_pos hsend]
    cases substr line 5 with
    | none => rfl
    | some message =>
        dsimp only
        split <;> rfl
  · rw [if_neg hsend, if_neg hsend]
    rfl

theorem turn_eq_sendPacket_iff {cmd : CmdType} {payload : ByteString}
    (reading : Reading) :
    reading.turn client time =
        client.sendPacket (new cmd payload client.profile.text time) ↔
      reading = .packet cmd payload := by
  constructor
  · intro hturn
    have hsent := congrArg Client.sent hturn
    cases reading with
    | packet other argument => simpa [Reading.turn, new] using hsent
    | refused => simp [Reading.turn] at hsent
    | throws => simp [Reading.turn] at hsent
  · rintro rfl
    rfl

theorem turn_quiet_iff (hrunning : client.ended = false) (reading : Reading) :
    (reading.turn client time).sent = client.sent ∧
        (reading.turn client time).ended = false ↔
      reading = .refused := by
  cases reading <;> simp [Reading.turn, hrunning]

end Turning

section Readings

variable {line rest : ByteString}

theorem follow_ne_nil : followText ≠ [] := List.cons_ne_nil _ _

theorem send_ne_nil : sendText ≠ [] := List.cons_ne_nil _ _

theorem substr_append (word rest : ByteString) :
    substr (word ++ rest) (word.length + 1) =
      match rest with
      | [] => none
      | _ :: argument => some argument := by
  cases rest with
  | nil => simp [substr]
  | cons byte argument => simp [substr, List.drop_append]

theorem read_follow :
    read (followText ++ rest) =
      if followText <:+: (followText ++ rest).tail then .refused
      else match rest with
        | [] => .throws
        | _ :: followed => .packet .follow followed := by
  have hfirst : rfind followText (followText ++ rest) = some 0 ↔
      ¬ followText <:+: (followText ++ rest).tail := by
    rw [rfind_eq_zero_iff follow_ne_nil, and_iff_right (List.prefix_append _ _)]
  have hsend : rfind sendText (followText ++ rest) ≠ some 0 := fun hat =>
    absurd ((rfind_eq_zero_iff send_ne_nil).1 hat).1
      (by simp [sendText, followText])
  rw [read, if_neg hsend]
  by_cases hagain : followText <:+: (followText ++ rest).tail
  · rw [if_neg (fun hat => hfirst.1 hat hagain), if_pos hagain]
  · have hcut := substr_append followText rest
    rw [if_pos (hfirst.2 hagain), if_neg hagain]
    simp only [show 7 = followText.length + 1 from rfl, hcut]
    cases rest <;> rfl

theorem read_send :
    read (sendText ++ rest) =
      if sendText <:+: (sendText ++ rest).tail then .refused
      else match rest with
        | [] => .throws
        | _ :: message =>
            if message.length > maxMsgLen then .refused
            else .packet .send message := by
  have hfirst : rfind sendText (sendText ++ rest) = some 0 ↔
      ¬ sendText <:+: (sendText ++ rest).tail := by
    rw [rfind_eq_zero_iff send_ne_nil, and_iff_right (List.prefix_append _ _)]
  have hfollow : rfind followText (sendText ++ rest) ≠ some 0 := fun hat =>
    absurd ((rfind_eq_zero_iff follow_ne_nil).1 hat).1
      (by simp [sendText, followText])
  rw [read, if_neg hfollow]
  by_cases hagain : sendText <:+: (sendText ++ rest).tail
  · rw [if_neg (fun hat => hfirst.1 hat hagain), if_pos hagain]
  · have hcut := substr_append sendText rest
    rw [if_pos (hfirst.2 hagain), if_neg hagain]
    simp only [show 5 = sendText.length + 1 from rfl, hcut]
    cases rest <;> rfl

theorem read_other (hfollow : ¬ followText <+: line) (hsend : ¬ sendText <+: line) :
    read line = .refused := by
  rw [read,
    if_neg (fun hat => hfollow ((rfind_eq_zero_iff follow_ne_nil).1 hat).1),
    if_neg (fun hat => hsend ((rfind_eq_zero_iff send_ne_nil).1 hat).1)]

end Readings

/-! ## The grammar -/

/-- The line is this command. -/
inductive Says : ByteString → CmdType → ByteString → Prop where
  | send (message : ByteString) (hshort : message.length ≤ maxMsgLen) :
      Says (sendText ++ 32 :: message) .send message
  | follow (followed : ByteString) :
      Says (followText ++ 32 :: followed) .follow followed

/-- A line that starts with a word is a command exactly if the word does not
occur again; for `SEND` this is only asked of lines that are short enough for a
message. -/
def Unambiguous (line : ByteString) : Prop :=
  (followText <+: line →
    (followText ++ [32] <+: line ↔ ¬ followText <:+: line.tail)) ∧
  (sendText <+: line → line.length ≤ 5 + maxMsgLen →
    (sendText ++ [32] <+: line ↔ ¬ sendText <:+: line.tail))

instance (line : ByteString) : Decidable (Unambiguous line) :=
  inferInstanceAs (Decidable (_ ∧ _))

/-- What the grammar asks of the loop. -/
def ReadAsSaid (line : ByteString) : Prop :=
  (∀ cmd payload, Says line cmd payload → read line = .packet cmd payload) ∧
    ((∀ cmd payload, ¬ Says line cmd payload) → read line = .refused)

section Grammar

variable {line rest payload : ByteString} {cmd : CmdType}

theorem says_follow_iff :
    Says (followText ++ rest) cmd payload ↔
      cmd = .follow ∧ rest = 32 :: payload := by
  constructor
  · generalize hline : followText ++ rest = line
    intro hphrase
    cases hphrase with
    | send _ hshort => simp [followText, sendText] at hline
    | follow _ => exact ⟨rfl, List.append_cancel_left hline⟩
  · rintro ⟨rfl, rfl⟩
    exact .follow payload

theorem says_send_iff :
    Says (sendText ++ rest) cmd payload ↔
      cmd = .send ∧ rest = 32 :: payload ∧ payload.length ≤ maxMsgLen := by
  constructor
  · generalize hline : sendText ++ rest = line
    intro hphrase
    cases hphrase with
    | send _ hshort => exact ⟨rfl, List.append_cancel_left hline, hshort⟩
    | follow _ => simp [followText, sendText] at hline
  · rintro ⟨rfl, rfl, hshort⟩
    exact .send payload hshort

theorem Says.starts (hphrase : Says line cmd payload) :
    followText <+: line ∨ sendText <+: line := by
  cases hphrase with
  | send _ _ => exact .inr (List.prefix_append _ _)
  | follow _ => exact .inl (List.prefix_append _ _)

theorem readAsSaid_follow_iff :
    ReadAsSaid (followText ++ rest) ↔
      (followText ++ [32] <+: followText ++ rest ↔
        ¬ followText <:+: (followText ++ rest).tail) := by
  rw [ReadAsSaid, List.prefix_append_right_inj, read_follow]
  simp only [says_follow_iff]
  by_cases hagain : followText <:+: (followText ++ rest).tail
  · rw [if_pos hagain, iff_false_right (not_not.2 hagain)]
    cases rest with
    | nil => exact absurd hagain (by decide)
    | cons byte followed => by_cases hblank : byte = 32 <;> simp [hblank, eq_comm]
  · rw [if_neg hagain, iff_true_right hagain]
    cases rest with
    | nil => simp
    | cons byte followed => by_cases hblank : byte = 32 <;> simp [hblank, eq_comm]

/-- A line too long for a message is refused, the word twice in it or not. -/
theorem readAsSaid_send_iff :
    ReadAsSaid (sendText ++ rest) ↔
      ((sendText ++ rest).length ≤ 5 + maxMsgLen →
        (sendText ++ [32] <+: sendText ++ rest ↔
          ¬ sendText <:+: (sendText ++ rest).tail)) := by
  have hlength : (sendText ++ rest).length ≤ 5 + maxMsgLen ↔
      rest.length ≤ 1 + maxMsgLen := by
    rw [List.length_append, show sendText.length = 4 from rfl]
    omega
  rw [ReadAsSaid, List.prefix_append_right_inj, read_send, hlength]
  simp only [says_send_iff]
  by_cases hagain : sendText <:+: (sendText ++ rest).tail
  · rw [if_pos hagain, iff_false_right (not_not.2 hagain)]
    cases rest with
    | nil => exact absurd hagain (by decide)
    | cons byte message =>
        rw [List.length_cons, Nat.add_comm, Nat.add_le_add_iff_left]
        by_cases hblank : byte = 32 <;> simp [hblank, eq_comm]
  · rw [if_neg hagain, iff_true_right hagain]
    cases rest with
    | nil => simp
    | cons byte message =>
        rw [List.length_cons, Nat.add_comm, Nat.add_le_add_iff_left]
        by_cases hblank : byte = 32 <;> simp [hblank, eq_comm]

theorem readAsSaid_iff : ReadAsSaid line ↔ Unambiguous line := by
  by_cases hfollow : followText <+: line
  · obtain ⟨rest, rfl⟩ := hfollow
    have hsend : ¬ sendText <+: followText ++ rest := by
      simp [followText, sendText]
    rw [readAsSaid_follow_iff, Unambiguous,
      and_iff_left (fun hstart => absurd hstart hsend),
      forall_prop_of_true (List.prefix_append _ _)]
  by_cases hsend : sendText <+: line
  · obtain ⟨rest, rfl⟩ := hsend
    rw [readAsSaid_send_iff, Unambiguous,
      and_iff_right (fun hstart => absurd hstart hfollow),
      forall_prop_of_true (List.prefix_append _ _)]
  -- any other line is no command and refused
  constructor
  · intro _
    exact ⟨fun hstart => absurd hstart hfollow, fun hstart => absurd hstart hsend⟩
  · intro _
    refine ⟨fun cmd payload hphrase => ?_, fun _ => read_other hfollow hsend⟩
    exact absurd hphrase.starts (not_or.2 ⟨hfollow, hsend⟩)

end Grammar

/-! ## A turn of the loop -/

/-- One turn sends the packet of a command and nothing else, and does not end
the process. -/
def Accepts (client : Client) (line : ByteString) (time : BitVec 64) : Prop :=
  (∀ cmd payload, Says line cmd payload →
    client.toServer line time =
        client.sendPacket (new cmd payload client.profile.text time) ∧
      Fits (new cmd payload client.profile.text time)) ∧
  ((∀ cmd payload, ¬ Says line cmd payload) →
    (client.toServer line time).sent = client.sent ∧
      (client.toServer line time).ended = false)

/-- On a closed connection the thread ends; a `FOLLOW` packet has to fit. -/
def Understood (client : Client) (line : ByteString) : Prop :=
  if client.isClosed then ∀ cmd payload, ¬ Says line cmd payload
  else Unambiguous line ∧
    (followText ++ [32] <+: line →
      line.length + client.profile.text.length ≤ 4078)

section Turns

variable {client : Client} {line payload : ByteString} {cmd : CmdType}

theorem Says.fits_iff (hphrase : Says line cmd payload) (profile : ProfileName)
    (time : BitVec 64) :
    Fits (new cmd payload profile.text time) ↔
      (followText ++ [32] <+: line →
        line.length + profile.text.length ≤ 4078) := by
  cases hphrase with
  | send _ hshort =>
      apply iff_of_true (fits_of_short .send profile time hshort)
      intro hstart
      simp [followText, sendText] at hstart
  | follow followed =>
      have hcut : substr (followText ++ 32 :: payload) 7 = some payload :=
        substr_append followText _
      rw [fits_follow_iff hcut, forall_prop_of_true]
      exact (List.prefix_append_right_inj _).2 (by simp)

theorem accepts_closed_iff (hrunning : client.ended = false)
    (hclosed : client.isClosed = true) (time : BitVec 64) :
    Accepts client line time ↔ ∀ cmd payload, ¬ Says line cmd payload := by
  have hexited : client.toServer line time = client.goto .exited := if_pos hclosed
  rw [Accepts, hexited]
  constructor
  · rintro ⟨hcommand, _⟩ cmd payload hphrase
    have hsent := congrArg Client.sent (hcommand cmd payload hphrase).1
    simp at hsent
  · intro hnone
    exact ⟨fun cmd payload hphrase => absurd hphrase (hnone cmd payload),
      fun _ => ⟨rfl, hrunning⟩⟩

theorem accepts_open_iff (hrunning : client.ended = false)
    (hopen : client.isClosed = false) (time : BitVec 64) :
    Accepts client line time ↔
      ReadAsSaid line ∧
        (followText ++ [32] <+: line →
          line.length + client.profile.text.length ≤ 4078) := by
  rw [Accepts, ReadAsSaid, toServer_eq time hopen]
  simp only [turn_eq_sendPacket_iff, turn_quiet_iff time hrunning]
  constructor
  · rintro ⟨hcommand, hother⟩
    refine ⟨⟨fun cmd payload hphrase => (hcommand cmd payload hphrase).1, hother⟩, ?_⟩
    intro hstart
    obtain ⟨followed, rfl⟩ := hstart
    have hphrase : Says (followText ++ [32] ++ followed) .follow followed := by
      rw [List.append_assoc]
      exact .follow followed
    exact (hphrase.fits_iff client.profile time).1 (hcommand _ _ hphrase).2
      (List.prefix_append _ _)
  · rintro ⟨⟨hcommand, hother⟩, hroom⟩
    exact ⟨fun cmd payload hphrase => ⟨hcommand cmd payload hphrase,
      (hphrase.fits_iff client.profile time).2 hroom⟩, hother⟩

/-- In a process that runs, a turn of the loop goes by the grammar exactly when
the line is understood. -/
theorem accepts_iff (hrunning : client.ended = false) (line : ByteString)
    (time : BitVec 64) :
    Accepts client line time ↔ Understood client line := by
  unfold Understood
  split
  · next hclosed => exact accepts_closed_iff hrunning hclosed time
  · next hopen =>
      rw [accepts_open_iff hrunning (Bool.eq_false_of_not_eq_true hopen) time,
        readAsSaid_iff]

/-- A client in front of the terminal. -/
def typing : Client :=
  { Client.start ⟨[99, 97, 114, 111, 108], by decide, by decide, by decide⟩ with
    con := .connected
    toServerTh := .reading }

theorem accepts_send :
    Accepts typing (sendText ++ [32, 104, 105]) 0 ↔
      Understood typing (sendText ++ [32, 104, 105]) :=
  accepts_iff rfl _ 0

/-- The bare word `SEND` ends the process. -/
theorem not_accepts_bareSend :
    ¬ ∀ client : Client, client.ended = false → client.isClosed = false →
      ∀ line time, Accepts client line time := by
  intro haccepts
  have hended := ((haccepts typing rfl rfl sendText 0).2 ?_).2
  · exact absurd hended (by decide)
  · intro cmd payload hphrase
    have hrest := (@says_send_iff [] payload cmd).1 hphrase
    exact absurd hrest.2.1 (List.cons_ne_nil _ _).symm

end Turns

end TwitterLike.Grammar
