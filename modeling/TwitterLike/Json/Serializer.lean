import TwitterLike.Core.Utf8
import TwitterLike.Server.JsonDump

/-!
# The text of a JSON value

`serializer::dump` of `lib/json.hpp` as `operator<<` calls it: without
indentation, without `ensure_ascii` and with the strict error handler.  The
automaton of `dump_escaped` also computes code points, which decide what is
escaped.
-/

namespace TwitterLike.JsonSerializer

open TwitterLike.ByteBuffer
open TwitterLike.JsonDump
open TwitterLike.Utf8

/-- A value that holds no number and no binary value.  The members of an object
are listed as a `std::map` iterates over them. -/
inductive Json where
  | null
  | boolean (value : Bool)
  | string (content : ByteString)
  | array (elements : List Json)
  | object (members : List (ByteString × Json))

/-! ## Strings -/

/-- `serializer::decode`, the code point. -/
def decodeCodepoint (state codep : ℕ) (byte : Byte) : ℕ :=
  if state ≠ 0 then (byte.toNat &&& 0x3F) ||| (codep <<< 6) % 2 ^ 32
  else (0xFF >>> utf8d.getD byte.toNat 0) &&& byte.toNat

/-- A digit of the format `%04x`. -/
def hexDigit (digit : ℕ) : Byte :=
  .ofNat (if digit < 10 then digit + 0x30 else digit - 10 + 0x61)

/-- The format `\\u%04x`. -/
def unicodeEscape (codepoint : ℕ) : ByteString :=
  [0x5C, 0x75, hexDigit (codepoint / 4096 % 16), hexDigit (codepoint / 256 % 16),
    hexDigit (codepoint / 16 % 16), hexDigit (codepoint % 16)]

/-- What `dump_escaped` writes at the last byte of a character; the bytes before
it have been copied. -/
def escape (codepoint : ℕ) (byte : Byte) : ByteString :=
  match codepoint with
  | 0x08 => [0x5C, 0x62]  -- \b
  | 0x09 => [0x5C, 0x74]  -- \t
  | 0x0A => [0x5C, 0x6E]  -- \n
  | 0x0C => [0x5C, 0x66]  -- \f
  | 0x0D => [0x5C, 0x72]  -- \r
  | 0x22 => [0x5C, 0x22]  -- \"
  | 0x5C => [0x5C, 0x5C]  -- \\
  | codepoint => if codepoint ≤ 0x1F then unicodeEscape codepoint else [byte]

/-- The loop of `dump_escaped`, with nothing for an exception. -/
def dumpEscapedFrom : ℕ → ℕ → ByteString → Option ByteString
  | state, _, [] => if state = 0 then some [] else none
  | state, codep, byte :: rest =>
      let codepoint := decodeCodepoint state codep byte
      match decode state byte with
      | 0 => (escape codepoint byte ++ ·) <$> dumpEscapedFrom 0 codepoint rest
      | 1 => none
      | next => (byte :: ·) <$> dumpEscapedFrom next codepoint rest

/-- `serializer::dump_escaped`. -/
def dumpEscaped (string : ByteString) : Option ByteString :=
  dumpEscapedFrom 0 0 string

/-! ## Values -/

/-- A string of `dump`, in quotation marks. -/
def dumpString (string : ByteString) : Option ByteString :=
  (fun text => 0x22 :: (text ++ [0x22])) <$> dumpEscaped string

mutual

/-- `serializer::dump`. -/
def dump : Json → Option ByteString
  | .null => some [0x6E, 0x75, 0x6C, 0x6C]  -- null
  | .boolean true => some [0x74, 0x72, 0x75, 0x65]  -- true
  | .boolean false => some [0x66, 0x61, 0x6C, 0x73, 0x65]  -- false
  | .string content => dumpString content
  | .array elements =>
      (fun text => 0x5B :: (text ++ [0x5D])) <$> dumpElements elements
  | .object members =>
      (fun text => 0x7B :: (text ++ [0x7D])) <$> dumpMembers members

/-- The elements of an array, with commas between them. -/
def dumpElements : List Json → Option ByteString
  | [] => some []
  | element :: rest => do
      let text ← dump element
      let texts ← dumpElements rest
      some (text ++ if rest.isEmpty then [] else 0x2C :: texts)

/-- The members of an object, with commas between them. -/
def dumpMembers : List (ByteString × Json) → Option ByteString
  | [] => some []
  | (key, value) :: rest => do
      let keyText ← dumpString key
      let text ← dump value
      let texts ← dumpMembers rest
      some (keyText ++ 0x3A :: text ++ if rest.isEmpty then [] else 0x2C :: texts)

end

/-- A nested value, with every kind of escape. -/
example : dump (.object [([0x6B], .array [.null, .boolean true,
      .string [0x22, 0x0A, 0x01, 0xC3, 0xA9]])]) =
    some [0x7B, 0x22, 0x6B, 0x22, 0x3A, 0x5B, 0x6E, 0x75, 0x6C, 0x6C, 0x2C, 0x74,
      0x72, 0x75, 0x65, 0x2C, 0x22, 0x5C, 0x22, 0x5C, 0x6E, 0x5C, 0x75, 0x30, 0x30,
      0x30, 0x31, 0xC3, 0xA9, 0x22, 0x5D, 0x7D] := by
  decide

/-! ## The automaton -/

section Automaton

variable {state codep value n : ℕ} {byte : Byte} {string rest : ByteString}

theorem decode_start : ∀ n < 0x100, decode 0 (.ofNat n) =
    if n ≤ 0x7F then 0
    else if n < 0xC2 then 1
    else if n ≤ 0xDF then 2
    else if n = 0xE0 then 4
    else if n = 0xED then 5
    else if n ≤ 0xEF then 3
    else if n = 0xF0 then 6
    else if n = 0xF4 then 8
    else if n ≤ 0xF3 then 7
    else 1 := by
  decide +kernel

/-- What a state inside of a character waits for, and its successor. -/
theorem decode_inside : ∀ n < 0x100,
    decode 2 (.ofNat n) = (if 0x80 ≤ n ∧ n ≤ 0xBF then 0 else 1) ∧
      decode 3 (.ofNat n) = (if 0x80 ≤ n ∧ n ≤ 0xBF then 2 else 1) ∧
      decode 4 (.ofNat n) = (if 0xA0 ≤ n ∧ n ≤ 0xBF then 2 else 1) ∧
      decode 5 (.ofNat n) = (if 0x80 ≤ n ∧ n ≤ 0x9F then 2 else 1) ∧
      decode 6 (.ofNat n) = (if 0x90 ≤ n ∧ n ≤ 0xBF then 3 else 1) ∧
      decode 7 (.ofNat n) = (if 0x80 ≤ n ∧ n ≤ 0xBF then 3 else 1) ∧
      decode 8 (.ofNat n) = (if 0x80 ≤ n ∧ n ≤ 0x8F then 3 else 1) := by
  decide +kernel

theorem decodeCodepoint_first :
    (∀ n < 0x80, decodeCodepoint 0 codep (.ofNat n) = n) ∧
      (∀ n < 0x20, 2 ≤ n → decodeCodepoint 0 codep (.ofNat (n + 0xC0)) = n) ∧
      (∀ n < 0x10, decodeCodepoint 0 codep (.ofNat (n + 0xE0)) = n) ∧
      ∀ n < 5, decodeCodepoint 0 codep (.ofNat (n + 0xF0)) = n := by
  simp only [decodeCodepoint, ne_eq, not_true_eq_false, if_false]
  decide +kernel

theorem decodeCodepoint_tail (hstate : state ≠ 0) (hcodep : codep < 2 ^ 26)
    (hn : n < 64) :
    decodeCodepoint state codep (.ofNat (n + 0x80)) = codep * 64 + n := by
  have hlow : (n + 0x80) &&& 0x3F = n := by
    rw [show 0x3F = 2 ^ 6 - 1 from rfl, Nat.and_two_pow_sub_one_eq_mod]
    omega
  have hshift : codep <<< 6 = codep * 64 := Nat.shiftLeft_eq _ _
  rw [decodeCodepoint, if_pos hstate, toNat_ofNat (by omega), hlow,
    Nat.mod_eq_of_lt (by omega), Nat.or_comm,
    ← Nat.shiftLeft_add_eq_or_of_lt (by omega : n < 2 ^ 6), hshift]

theorem dumpEscapedFrom_accept (hdecode : decode state byte = 0) :
    dumpEscapedFrom state codep (byte :: rest) =
      (escape (decodeCodepoint state codep byte) byte ++ ·) <$>
        dumpEscapedFrom 0 (decodeCodepoint state codep byte) rest := by
  rw [dumpEscapedFrom, hdecode]
  rfl

theorem dumpEscapedFrom_inside {next : ℕ} (hdecode : decode state byte = next)
    (hnext : 2 ≤ next) :
    dumpEscapedFrom state codep (byte :: rest) =
      (byte :: ·) <$>
        dumpEscapedFrom next (decodeCodepoint state codep byte) rest := by
  rw [dumpEscapedFrom, hdecode]
  match next with
  | next + 2 => rfl

/-- A string is written when the automaton accepts it. -/
theorem isSome_dumpEscapedFrom :
    (dumpEscapedFrom state codep string).isSome = dumpsFrom state string := by
  induction string generalizing state codep with
  | nil =>
      by_cases hstate : state = 0 <;> simp [dumpEscapedFrom, dumpsFrom, hstate]
  | cons byte rest ih =>
      rw [dumpsFrom]
      by_cases hzero : decode state byte = 0
      · rw [dumpEscapedFrom_accept hzero, hzero, Option.map_eq_map, Option.isSome_map, ih]
        rfl
      · by_cases hone : decode state byte = 1
        · rw [dumpEscapedFrom, hone]
          rfl
        · rw [dumpEscapedFrom_inside rfl (by omega), Option.map_eq_map, Option.isSome_map, ih,
            if_neg hone]

/-! ## Characters -/

/-- What is written for a character. -/
def escaped (value : ℕ) : ByteString :=
  if value ≤ 0x7F then escape value (.ofNat value) else encode value

theorem escape_of_large (hvalue : 0x7F < value) : escape value byte = [byte] := by
  have hsmall : ¬ value ≤ 0x1F := by omega
  unfold escape
  split <;> first | omega | exact if_neg hsmall

/-- The last byte of a character of several bytes. -/
theorem dumpEscapedFrom_last (hcodep : codep < 2 ^ 26) (hn : n < 64)
    (hvalue : codep * 64 + n = value) (hlarge : 0x7F < value) :
    dumpEscapedFrom 2 codep (.ofNat (n + 0x80) :: rest) =
      (.ofNat (n + 0x80) :: ·) <$> dumpEscapedFrom 0 value rest := by
  rw [dumpEscapedFrom_accept (decode_continuation n hn).1,
    decodeCodepoint_tail (by decide) hcodep hn, hvalue, escape_of_large hlarge]
  rfl

/-- A continuation byte that another one follows. -/
theorem dumpEscapedFrom_tail {next : ℕ} (hstate : state ≠ 0)
    (hcodep : codep < 2 ^ 26) (hn : n < 64)
    (hdecode : decode state (.ofNat (n + 0x80)) = next) (hnext : 2 ≤ next) :
    dumpEscapedFrom state codep (.ofNat (n + 0x80) :: rest) =
      (.ofNat (n + 0x80) :: ·) <$> dumpEscapedFrom next (codep * 64 + n) rest := by
  rw [dumpEscapedFrom_inside hdecode hnext, decodeCodepoint_tail hstate hcodep hn]

/-- Behind a character the automaton is in its first state, and the code point is
the value of the character. -/
theorem dumpEscapedFrom_encode (hvalue : IsScalar value) :
    dumpEscapedFrom 0 codep (encode value ++ rest) =
      (escaped value ++ ·) <$> dumpEscapedFrom 0 value rest := by
  obtain ⟨hcodeOne, hcodeTwo, hcodeThree, hcodeFour⟩ :=
    @decodeCodepoint_first codep
  have hlast : value % 64 < 64 := Nat.mod_lt _ (by decide)
  have hmiddle : value / 64 % 64 < 64 := Nat.mod_lt _ (by decide)
  have hhigh : value / 4096 % 64 < 64 := Nat.mod_lt _ (by decide)
  rw [IsScalar] at hvalue
  rw [encode, escaped, encode]
  split_ifs with hone htwo hthree
  · have hdecode := decode_first value (by omega)
    rw [List.singleton_append, dumpEscapedFrom_accept hdecode,
      hcodeOne value (by omega)]
  · have hdecode := decode_firstOfTwo (value / 64) (by omega) (by omega)
    have hcode := hcodeTwo (value / 64) (by omega) (by omega)
    simp only [List.cons_append, List.nil_append]
    rw [dumpEscapedFrom_inside hdecode (by decide), hcode,
      dumpEscapedFrom_last (by omega) hlast (by omega) (by omega : 0x7F < value),
      Functor.map_map]
  · obtain ⟨hfirst, hsecond⟩ := decode_secondOfThree
      (by omega : value / 4096 < 0x10) hmiddle (by omega) (by omega)
    have hcode := hcodeThree (value / 4096) (by omega)
    have hinside : 2 ≤ decode 0 (.ofNat (value / 4096 + 0xE0)) := by
      rw [decode_firstOfThree _ (by omega)]
      split_ifs <;> decide
    simp only [List.cons_append, List.nil_append]
    rw [dumpEscapedFrom_inside rfl hinside, hcode,
      dumpEscapedFrom_tail (by omega) (by omega) hmiddle hsecond (by decide),
      dumpEscapedFrom_last (by omega) hlast (by omega) (by omega : 0x7F < value),
      Functor.map_map, Functor.map_map]
  · obtain ⟨hfirst, hsecond⟩ := decode_secondOfFour
      (by omega : value / 262144 < 5) hhigh (by omega) (by omega)
    have hcode := hcodeFour (value / 262144) (by omega)
    have hinside : 2 ≤ decode 0 (.ofNat (value / 262144 + 0xF0)) := by
      rw [decode_firstOfFour _ (by omega)]
      split_ifs <;> decide
    have hthird := (decode_continuation (value / 64 % 64) hmiddle).2.1
    simp only [List.cons_append, List.nil_append]
    rw [dumpEscapedFrom_inside rfl hinside, hcode,
      dumpEscapedFrom_tail (by omega) (by omega) hhigh hsecond (by decide),
      dumpEscapedFrom_tail (by decide) (by omega) hmiddle hthird (by decide),
      dumpEscapedFrom_last (by omega) hlast (by omega) (by omega : 0x7F < value),
      Functor.map_map, Functor.map_map, Functor.map_map]

/-- A text is written character by character. -/
theorem dumpEscapedFrom_text (text : List Char) :
    dumpEscapedFrom 0 codep (text.flatMap String.utf8EncodeChar) =
      some (text.flatMap fun character => escaped character.toNat) := by
  induction text generalizing codep with
  | nil => rfl
  | cons character text ih =>
      rw [List.flatMap_cons, utf8EncodeChar_eq_encode,
        dumpEscapedFrom_encode (isScalar_toNat character), ih, List.flatMap_cons]
      rfl

/-! ## Accepted strings -/

theorem dumpsFrom_cons_iff : dumpsFrom state (byte :: rest) = true ↔
    decode state byte ≠ 1 ∧ dumpsFrom (decode state byte) rest = true := by
  rw [dumpsFrom]
  split <;> simp_all

/-- A state inside of a character accepts only a byte of its range. -/
theorem exists_inside {low high next : ℕ}
    (hdecode : decode state (.ofNat (string.headD 0).toNat) =
      if low ≤ (string.headD 0).toNat ∧ (string.headD 0).toNat ≤ high then next
        else 1)
    (hstate : state ≠ 0) (haccepts : dumpsFrom state string = true) :
    ∃ byte tail, string = byte :: tail ∧ (low ≤ byte.toNat ∧ byte.toNat ≤ high) ∧
      dumpsFrom next tail = true := by
  cases string with
  | nil =>
      rw [dumpsFrom, beq_iff_eq] at haccepts
      exact absurd haccepts hstate
  | cons byte tail =>
      rw [List.headD_cons, UInt8.ofNat_toNat] at hdecode
      obtain ⟨hnext, haccepts⟩ := dumpsFrom_cons_iff.1 haccepts
      have hrange : low ≤ byte.toNat ∧ byte.toNat ≤ high := by
        by_contra hrange
        exact hnext (hdecode.trans (if_neg hrange))
      rw [hdecode, if_pos hrange] at haccepts
      exact ⟨byte, tail, rfl, hrange, haccepts⟩

/-- The last byte of a character. -/
theorem exists_last (haccepts : dumpsFrom 2 string = true) :
    ∃ last tail, string = last :: tail ∧ Tail last ∧ dumpsFrom 0 tail = true :=
  exists_inside (decode_inside _ (UInt8.toNat_lt _)).1 (by decide) haccepts

/-- The last two bytes of a character. -/
theorem exists_lastTwo (haccepts : dumpsFrom 3 string = true) :
    ∃ third last tail, string = third :: last :: tail ∧ Tail third ∧ Tail last ∧
      dumpsFrom 0 tail = true := by
  obtain ⟨third, tail, rfl, hthird, haccepts⟩ :=
    exists_inside (decode_inside _ (UInt8.toNat_lt _)).2.1 (by decide) haccepts
  obtain ⟨last, tail, rfl, hlast, haccepts⟩ := exists_last haccepts
  exact ⟨third, last, tail, rfl, hthird, hlast, haccepts⟩

/-- What is accepted from the first state on starts with a character. -/
theorem exists_sequence (haccepts : dumpsFrom 0 (byte :: rest) = true) :
    ∃ bytes tail, byte :: rest = bytes ++ tail ∧ Sequence bytes ∧
      dumpsFrom 0 tail = true := by
  have hdecode := decode_start byte.toNat byte.toNat_lt
  rw [UInt8.ofNat_toNat] at hdecode
  obtain ⟨hnext, haccepts⟩ := dumpsFrom_cons_iff.1 haccepts
  have hsecond := decode_inside (rest.headD 0).toNat (UInt8.toNat_lt _)
  obtain ⟨-, hthree, hafterE0, hafterED, hafterF0, hfour, hafterF4⟩ := hsecond
  rw [hdecode] at hnext haccepts
  -- the state after the first byte gives the number of bytes
  split_ifs at hnext haccepts with hone hnone htwo hE0 hED hEF hF0 hF4 hF3
  · exact ⟨[byte], rest, rfl, .one hone, haccepts⟩
  · exact absurd rfl hnext
  · obtain ⟨last, tail, rfl, hlast, haccepts⟩ := exists_last haccepts
    exact ⟨[byte, last], tail, rfl, .two (by omega) hlast, haccepts⟩
  · obtain ⟨second, tail, rfl, hsecond, haccepts⟩ :=
      exists_inside hafterE0 (by decide) haccepts
    obtain ⟨last, tail, rfl, hlast, haccepts⟩ := exists_last haccepts
    exact ⟨[byte, second, last], tail, rfl, .three (by omega)
      ⟨by omega, by omega⟩ (by omega) (by omega) hlast, haccepts⟩
  · obtain ⟨second, tail, rfl, hsecond, haccepts⟩ :=
      exists_inside hafterED (by decide) haccepts
    obtain ⟨last, tail, rfl, hlast, haccepts⟩ := exists_last haccepts
    exact ⟨[byte, second, last], tail, rfl, .three (by omega)
      ⟨by omega, by omega⟩ (by omega) (by omega) hlast, haccepts⟩
  · obtain ⟨second, tail, rfl, hsecond, haccepts⟩ :=
      exists_inside hthree (by decide) haccepts
    obtain ⟨last, tail, rfl, hlast, haccepts⟩ := exists_last haccepts
    exact ⟨[byte, second, last], tail, rfl, .three (by omega) hsecond
      (by omega) (by omega) hlast, haccepts⟩
  · obtain ⟨second, tail, rfl, hsecond, haccepts⟩ :=
      exists_inside hafterF0 (by decide) haccepts
    obtain ⟨third, last, tail, rfl, hthird, hlast, haccepts⟩ :=
      exists_lastTwo haccepts
    exact ⟨[byte, second, third, last], tail, rfl, .four (by omega)
      ⟨by omega, by omega⟩ (by omega) (by omega) hthird hlast, haccepts⟩
  · obtain ⟨second, tail, rfl, hsecond, haccepts⟩ :=
      exists_inside hafterF4 (by decide) haccepts
    obtain ⟨third, last, tail, rfl, hthird, hlast, haccepts⟩ :=
      exists_lastTwo haccepts
    exact ⟨[byte, second, third, last], tail, rfl, .four (by omega)
      ⟨by omega, by omega⟩ (by omega) (by omega) hthird hlast, haccepts⟩
  · obtain ⟨second, tail, rfl, hsecond, haccepts⟩ :=
      exists_inside hfour (by decide) haccepts
    obtain ⟨third, last, tail, rfl, hthird, hlast, haccepts⟩ :=
      exists_lastTwo haccepts
    exact ⟨[byte, second, third, last], tail, rfl, .four (by omega) hsecond
      (by omega) (by omega) hthird hlast, haccepts⟩
  · exact absurd rfl hnext

theorem isUtf8_of_dumpsFrom (haccepts : dumpsFrom 0 string = true) :
    IsUtf8 string := by
  induction hlength : string.length using Nat.strong_induction_on
    generalizing string with
  | _ length ih =>
      cases string with
      | nil => exact ⟨[], rfl⟩
      | cons byte rest =>
          obtain ⟨bytes, tail, heq, hbytes, haccepts⟩ := exists_sequence haccepts
          rw [heq, List.length_append] at hlength
          have hpositive : 0 < bytes.length := by cases hbytes <;> exact Nat.succ_pos _
          obtain ⟨text, rfl⟩ := ih tail.length (by omega) haccepts rfl
          obtain ⟨character, rfl⟩ := sequence_iff.1 hbytes
          exact ⟨character :: text, heq⟩

/-- `dump_escaped` does not throw exactly on the texts, and what it writes is
decided character by character. -/
theorem dumpEscaped_eq_some_iff {written : ByteString} :
    dumpEscaped string = some written ↔
      ∃ text : List Char, string = text.flatMap String.utf8EncodeChar ∧
        written = text.flatMap fun character => escaped character.toNat := by
  constructor
  · intro hwritten
    have haccepts : dumpsFrom 0 string = true := by
      rw [← @isSome_dumpEscapedFrom 0 0, ← dumpEscaped, hwritten]
      rfl
    obtain ⟨text, rfl⟩ := isUtf8_of_dumpsFrom haccepts
    rw [dumpEscaped, dumpEscapedFrom_text] at hwritten
    exact ⟨text, rfl, (Option.some.inj hwritten).symm⟩
  · rintro ⟨text, rfl, rfl⟩
    exact dumpEscapedFrom_text text

end Automaton

end TwitterLike.JsonSerializer
