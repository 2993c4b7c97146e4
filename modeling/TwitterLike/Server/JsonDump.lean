import TwitterLike.Core.ByteBuffer

/-!
# Serialisation of the profile table

The part of `lib/json.hpp` that decides whether `jsonFile << j` throws:
`operator<<` dumps with the strict error handler and without `ensure_ascii`, and
`dump_escaped` runs every key and every string through a UTF-8 automaton.
-/

namespace TwitterLike.JsonDump

open TwitterLike.ByteBuffer

/-- The table `utf8d` of `serializer::decode`: the class of every byte, then the
successor of every state under every class. -/
def utf8d : List ℕ :=
  List.replicate 128 0 ++                                    -- 00..7F
  List.replicate 16 1 ++ List.replicate 16 9 ++              -- 80..9F
  List.replicate 32 7 ++                                     -- A0..BF
  [8, 8] ++ List.replicate 30 2 ++                           -- C0..DF
  [0xA, 3, 3, 3, 3, 3, 3, 3, 3, 3, 3, 3, 3, 4, 3, 3] ++      -- E0..EF
  [0xB, 6, 6, 6, 5, 8, 8, 8, 8, 8, 8, 8, 8, 8, 8, 8] ++      -- F0..FF
  [0, 1, 2, 3, 5, 8, 7, 1, 1, 1, 4, 6, 1, 1, 1, 1] ++        -- s0
  [1, 1, 1, 1, 1, 1, 1, 1, 1, 1, 1, 1, 1, 1, 1, 1] ++        -- s1
  [1, 0, 1, 1, 1, 1, 1, 0, 1, 0, 1, 1, 1, 1, 1, 1] ++        -- s2
  [1, 2, 1, 1, 1, 1, 1, 2, 1, 2, 1, 1, 1, 1, 1, 1] ++        -- s3
  [1, 1, 1, 1, 1, 1, 1, 2, 1, 1, 1, 1, 1, 1, 1, 1] ++        -- s4
  [1, 2, 1, 1, 1, 1, 1, 1, 1, 2, 1, 1, 1, 1, 1, 1] ++        -- s5
  [1, 1, 1, 1, 1, 1, 1, 3, 1, 3, 1, 1, 1, 1, 1, 1] ++        -- s6
  [1, 3, 1, 1, 1, 1, 1, 3, 1, 3, 1, 1, 1, 1, 1, 1] ++        -- s7
  [1, 3, 1, 1, 1, 1, 1, 1, 1, 1, 1, 1, 1, 1, 1, 1]           -- s8

/-- `serializer::decode`, without the code point. -/
def decode (state : ℕ) (byte : Byte) : ℕ :=
  utf8d.getD (256 + state * 16 + utf8d.getD byte.toNat 0) 0

/-- `dump_escaped` from a state of the automaton on: it throws at the first
rejected byte and when the string ends inside a character. -/
def dumpsFrom : ℕ → ByteString → Bool
  | state, [] => state == 0
  | state, byte :: rest =>
      if decode state byte = 1 then false
      else dumpsFrom (decode state byte) rest

/-- `dump_escaped` writes the string without throwing. -/
def dumps (string : ByteString) : Bool :=
  dumpsFrom 0 string

/-- An object whose values are arrays of strings, in key order. -/
abbrev JsonObject := List (ByteString × List ByteString)

/-- `operator<<` writes the object without throwing. -/
def JsonObject.dumpable (object : JsonObject) : Bool :=
  object.all fun entry => dumps entry.1 && entry.2.all dumps

/-- The content of the file behind an `ofstream` that has been closed. -/
inductive JsonFile where
  | absent
  /-- the default-constructed value -/
  | null
  | object (entries : JsonObject)
  /-- opened, and left by an exception -/
  | truncated
  deriving DecidableEq

/-- The first and last bytes of each length of a UTF-8 character dump; an
overlong form, a surrogate and a lone continuation byte do not. -/
example : dumps [0x24] ∧ dumps [0xC2, 0xA3] ∧ dumps [0xE2, 0x82, 0xAC] ∧
    dumps [0xF0, 0x90, 0x8D, 0x88] ∧ ¬ dumps [0xC0, 0x80] ∧
    ¬ dumps [0xED, 0xA0, 0x80] ∧ ¬ dumps [0x80] ∧ ¬ dumps [0xC3] := by
  decide

/-! ## Texts -/

/-- The bytes of a text. -/
def IsUtf8 (string : ByteString) : Prop :=
  ∃ text : List Char, string = text.flatMap String.utf8EncodeChar

section Utf8

theorem decode_first : ∀ n < 0x80, decode 0 (.ofNat n) = 0 := by
  decide +kernel

theorem decode_firstOfTwo :
    ∀ n < 0x20, 2 ≤ n → decode 0 (.ofNat (n + 0xC0)) = 2 := by
  decide +kernel

theorem decode_firstOfThree : ∀ n < 0x10,
    decode 0 (.ofNat (n + 0xE0)) =
      if n = 0 then 4 else if n = 0xD then 5 else 3 := by
  decide +kernel

theorem decode_firstOfFour : ∀ n < 5,
    decode 0 (.ofNat (n + 0xF0)) =
      if n = 0 then 6 else if n = 4 then 8 else 7 := by
  decide +kernel

theorem decode_continuation : ∀ n < 0x40,
    decode 2 (.ofNat (n + 0x80)) = 0 ∧ decode 3 (.ofNat (n + 0x80)) = 2 ∧
      decode 7 (.ofNat (n + 0x80)) = 3 := by
  decide +kernel

/-- Behind the first bytes of overlong forms, surrogates and values that are too
large, half of the continuations are rejected. -/
theorem decode_restricted : ∀ n < 0x40,
    (0x20 ≤ n → decode 4 (.ofNat (n + 0x80)) = 2) ∧
      (n < 0x20 → decode 5 (.ofNat (n + 0x80)) = 2) ∧
      (0x10 ≤ n → decode 6 (.ofNat (n + 0x80)) = 3) ∧
      (n < 0x10 → decode 8 (.ofNat (n + 0x80)) = 3) := by
  decide +kernel

theorem decode_secondOfThree {first second : ℕ} (hfirst : first < 0x10)
    (hsecond : second < 0x40) (hoverlong : first = 0 → 0x20 ≤ second)
    (hsurrogate : first = 0xD → second < 0x20) :
    decode 0 (.ofNat (first + 0xE0)) ≠ 1 ∧
      decode (decode 0 (.ofNat (first + 0xE0))) (.ofNat (second + 0x80)) = 2 := by
  rw [decode_firstOfThree first hfirst]
  obtain ⟨hafterE0, hafterED, _, _⟩ := decode_restricted second hsecond
  split
  · next hzero => exact ⟨by decide, hafterE0 (hoverlong hzero)⟩
  · split
    · next heq => exact ⟨by decide, hafterED (hsurrogate heq)⟩
    · exact ⟨by decide, (decode_continuation second hsecond).2.1⟩

theorem decode_secondOfFour {first second : ℕ} (hfirst : first < 5)
    (hsecond : second < 0x40) (hoverlong : first = 0 → 0x10 ≤ second)
    (hlarge : first = 4 → second < 0x10) :
    decode 0 (.ofNat (first + 0xF0)) ≠ 1 ∧
      decode (decode 0 (.ofNat (first + 0xF0))) (.ofNat (second + 0x80)) = 3 := by
  rw [decode_firstOfFour first hfirst]
  obtain ⟨_, _, hafterF0, hafterF4⟩ := decode_restricted second hsecond
  split
  · next hzero => exact ⟨by decide, hafterF0 (hoverlong hzero)⟩
  · split
    · next heq => exact ⟨by decide, hafterF4 (hlarge heq)⟩
    · exact ⟨by decide, (decode_continuation second hsecond).2.2⟩

theorem dumpsFrom_cons {state next : ℕ} {byte : Byte}
    (hdecode : decode state byte = next) (hnext : next ≠ 1) (rest : ByteString) :
    dumpsFrom state (byte :: rest) = dumpsFrom next rest := by
  subst hdecode
  exact if_neg hnext

/-- The last byte of a character of several bytes. -/
theorem dumpsFrom_last {n : ℕ} (hn : n < 0x40) (rest : ByteString) :
    dumpsFrom 2 (.ofNat (n + 0x80) :: rest) = dumpsFrom 0 rest :=
  dumpsFrom_cons (decode_continuation n hn).1 (by decide) rest

/-- Behind the bytes of a character the automaton is in its first state. -/
theorem dumpsFrom_utf8EncodeChar (character : Char) (rest : ByteString) :
    dumpsFrom 0 (String.utf8EncodeChar character ++ rest) = dumpsFrom 0 rest := by
  have hvalid : character.val.toNat < 0xD800 ∨
      0xDFFF < character.val.toNat ∧ character.val.toNat < 0x110000 :=
    character.valid
  rw [String.utf8EncodeChar]
  generalize character.val.toNat = value at hvalid
  have hlast : value % 0x40 < 0x40 := Nat.mod_lt _ (by decide)
  have hmiddle : value / 64 % 0x40 < 0x40 := Nat.mod_lt _ (by decide)
  split_ifs with hone htwo hthree
  · exact dumpsFrom_cons (decode_first value (by omega)) (by decide) rest
  · have hfirst := decode_firstOfTwo (value / 64 % 0x20) (by omega) (by omega)
    exact (dumpsFrom_cons hfirst (by decide) _).trans (dumpsFrom_last hlast rest)
  · obtain ⟨hfirst, hsecond⟩ := decode_secondOfThree
      (by omega : value / 4096 % 0x10 < 0x10) hmiddle (by omega) (by omega)
    calc
      _ = _ := dumpsFrom_cons rfl hfirst _
      _ = _ := dumpsFrom_cons hsecond (by decide) _
      _ = _ := dumpsFrom_last hlast rest
  · obtain ⟨hfirst, hsecond⟩ := decode_secondOfFour
      (by omega : value / 262144 % 0x08 < 5)
      (by omega : value / 4096 % 0x40 < 0x40) (by omega) (by omega)
    calc
      _ = _ := dumpsFrom_cons rfl hfirst _
      _ = _ := dumpsFrom_cons hsecond (by decide) _
      _ = _ := dumpsFrom_cons (decode_continuation _ hmiddle).2.1 (by decide) _
      _ = _ := dumpsFrom_last hlast rest

/-- Texts are written. -/
theorem dumps_of_isUtf8 {string : ByteString} (hutf8 : IsUtf8 string) :
    dumps string = true := by
  obtain ⟨text, rfl⟩ := hutf8
  induction text with
  | nil => rfl
  | cons character text ih =>
      rw [dumps, List.flatMap_cons, dumpsFrom_utf8EncodeChar]
      exact ih

end Utf8

end TwitterLike.JsonDump
