import TwitterLike.Json.Serializer

/-!
# The lexer of JSON texts

`lexer::scan` of `lib/json.hpp` as a function from the input that is left to a
token and the input behind it.  Nothing stands for `parse_error` and for
`end_of_input`, which end a parse wherever a token is asked for; numbers are left
out.  `Lexeme` says which texts are the texts of a token.
-/

namespace TwitterLike.JsonLexer

open TwitterLike.ByteBuffer
open TwitterLike.Utf8

/-- `token_type`. -/
inductive Token where
  | beginArray
  | endArray
  | beginObject
  | endObject
  | nameSeparator
  | valueSeparator
  | literalTrue
  | literalFalse
  | literalNull
  | valueString (content : ByteString)
  deriving DecidableEq

/-! ## Strings -/

/-- A digit of `get_codepoint`. -/
def hexValue (current : Byte) : Option ℕ :=
  if 0x30 ≤ current.toNat ∧ current.toNat ≤ 0x39 then some (current.toNat - 0x30)
  else if 0x41 ≤ current.toNat ∧ current.toNat ≤ 0x46 then
    some (current.toNat - 0x37)
  else if 0x61 ≤ current.toNat ∧ current.toNat ≤ 0x66 then
    some (current.toNat - 0x57)
  else none

/-- `lexer::get_codepoint`. -/
def getCodepoint : ByteString → Option (ℕ × ByteString)
  | first :: second :: third :: fourth :: rest => do
      let thousands ← hexValue first
      let hundreds ← hexValue second
      let tens ← hexValue third
      let ones ← hexValue fourth
      some ((thousands <<< 12) + (hundreds <<< 8) + (tens <<< 4) + ones, rest)
  | _ => none

/-- The bytes that `scan_string` adds for a code point. -/
def addCodepoint (codepoint : ℕ) : ByteString :=
  if codepoint < 0x80 then [.ofNat codepoint]
  else if codepoint ≤ 0x7FF then
    [.ofNat (0xC0 ||| codepoint >>> 6), .ofNat (0x80 ||| codepoint &&& 0x3F)]
  else if codepoint ≤ 0xFFFF then
    [.ofNat (0xE0 ||| codepoint >>> 12),
      .ofNat (0x80 ||| (codepoint >>> 6) &&& 0x3F),
      .ofNat (0x80 ||| codepoint &&& 0x3F)]
  else
    [.ofNat (0xF0 ||| codepoint >>> 18),
      .ofNat (0x80 ||| (codepoint >>> 12) &&& 0x3F),
      .ofNat (0x80 ||| (codepoint >>> 6) &&& 0x3F),
      .ofNat (0x80 ||| codepoint &&& 0x3F)]

/-- The cases of `scan_string` behind a reverse solidus other than `u`. -/
def shortEscape : ℕ → Option Byte
  | 0x22 => some 0x22  -- \"
  | 0x5C => some 0x5C  -- \\
  | 0x2F => some 0x2F  -- \/
  | 0x62 => some 0x08  -- \b
  | 0x66 => some 0x0C  -- \f
  | 0x6E => some 0x0A  -- \n
  | 0x72 => some 0x0D  -- \r
  | 0x74 => some 0x09  -- \t
  | _ => none

/-- The case `u` of `scan_string`. -/
def scanUnicodeEscape (input : ByteString) : Option (ByteString × ByteString) := do
  let (codepoint1, rest) ← getCodepoint input
  if 0xD800 ≤ codepoint1 ∧ codepoint1 ≤ 0xDBFF then
    match rest with
    | next :: following :: rest =>
        if next = 0x5C ∧ following = 0x75 then
          let (codepoint2, rest) ← getCodepoint rest
          if 0xDC00 ≤ codepoint2 ∧ codepoint2 ≤ 0xDFFF then
            some (addCodepoint ((codepoint1 <<< 10) + codepoint2 - 0x35FDC00), rest)
          else none
        else none
    | _ => none
  else if 0xDC00 ≤ codepoint1 ∧ codepoint1 ≤ 0xDFFF then none
  else some (addCodepoint codepoint1, rest)

/-- The ranges that `scan_string` expects behind the first byte of a character. -/
def byteRanges (current : ℕ) : Option (List (ℕ × ℕ)) :=
  if current ≤ 0x1F then none  -- control characters
  else if current = 0x22 ∨ current = 0x5C then none  -- cases of their own
  else if current ≤ 0x7F then some []
  else if current < 0xC2 then none
  else if current ≤ 0xDF then some [(0x80, 0xBF)]
  else if current = 0xE0 then some [(0xA0, 0xBF), (0x80, 0xBF)]
  else if current = 0xED then some [(0x80, 0x9F), (0x80, 0xBF)]
  else if current ≤ 0xEF then some [(0x80, 0xBF), (0x80, 0xBF)]
  else if current = 0xF0 then some [(0x90, 0xBF), (0x80, 0xBF), (0x80, 0xBF)]
  else if current ≤ 0xF3 then some [(0x80, 0xBF), (0x80, 0xBF), (0x80, 0xBF)]
  else if current = 0xF4 then some [(0x80, 0x8F), (0x80, 0xBF), (0x80, 0xBF)]
  else none

/-- `lexer::next_byte_in_range`: the bytes that it adds behind the current one. -/
def nextByteInRange :
    List (ℕ × ℕ) → ByteString → Option (ByteString × ByteString)
  | [], rest => some ([], rest)
  | _ :: _, [] => none
  | (low, high) :: ranges, current :: rest =>
      if low ≤ current.toNat ∧ current.toNat ≤ high then
        (nextByteInRange ranges rest).map fun (added, rest) =>
          (current :: added, rest)
      else none

/-- One turn of the loop of `scan_string` that adds to the token buffer. -/
def scanCharacter (current : Byte) (rest : ByteString) :
    Option (ByteString × ByteString) :=
  if current = 0x5C then
    match rest with
    | [] => none
    | name :: rest =>
        if name = 0x75 then scanUnicodeEscape rest
        else (shortEscape name.toNat).map fun byte => ([byte], rest)
  else do
    let ranges ← byteRanges current.toNat
    let (added, rest) ← nextByteInRange ranges rest
    some (current :: added, rest)

/-! ## The texts of characters -/

/-- Four hexadecimal digits. -/
inductive Hex4 : ByteString → ℕ → Prop
  | intro {first second third fourth : Byte} {thousands hundreds tens ones : ℕ}
      (hfirst : hexValue first = some thousands)
      (hsecond : hexValue second = some hundreds)
      (hthird : hexValue third = some tens) (hfourth : hexValue fourth = some ones) :
      Hex4 [first, second, third, fourth]
        (((thousands * 16 + hundreds) * 16 + tens) * 16 + ones)

/-- The texts of one character inside of quotation marks, and its encoding. -/
inductive Spells : ByteString → ByteString → Prop
  | plain {first : Byte} {bytes : ByteString} (hbytes : Sequence (first :: bytes))
      (hplain : 0x1F < first.toNat ∧ first.toNat ≠ 0x22 ∧ first.toNat ≠ 0x5C) :
      Spells (first :: bytes) (first :: bytes)
  | short {name byte : Byte} (hname : shortEscape name.toNat = some byte) :
      Spells [0x5C, name] [byte]
  | unicode {digits : ByteString} {value : ℕ} (hdigits : Hex4 digits value)
      (hvalue : IsScalar value) : Spells (0x5C :: 0x75 :: digits) (encode value)
  | surrogates {highDigits lowDigits : ByteString} {high low : ℕ}
      (hhighDigits : Hex4 highDigits high) (hlowDigits : Hex4 lowDigits low)
      (hhigh : 0xD800 ≤ high ∧ high ≤ 0xDBFF)
      (hlow : 0xDC00 ≤ low ∧ low ≤ 0xDFFF) :
      Spells (0x5C :: 0x75 :: (highDigits ++ 0x5C :: 0x75 :: lowDigits))
        (encode (0x10000 + (high - 0xD800) * 0x400 + (low - 0xDC00)))

section Characters

variable {input added rest after spelling digits : ByteString} {current : Byte}
  {codepoint value : ℕ}

theorem hexValue_lt (hcurrent : hexValue current = some value) : value < 16 := by
  unfold hexValue at hcurrent
  split_ifs at hcurrent <;> cases hcurrent <;> omega

theorem Hex4.lt (hdigits : Hex4 digits value) : value ≤ 0xFFFF := by
  obtain ⟨hfirst, hsecond, hthird, hfourth⟩ := hdigits
  have hthousands := hexValue_lt hfirst
  have hhundreds := hexValue_lt hsecond
  have htens := hexValue_lt hthird
  have hones := hexValue_lt hfourth
  omega

theorem getCodepoint_eq_some_iff : getCodepoint input = some (value, after) ↔
    ∃ digits, input = digits ++ after ∧ Hex4 digits value := by
  constructor
  · intro hread
    unfold getCodepoint at hread
    split at hread
    · simp only [Option.bind_eq_bind, Option.bind_eq_some_iff, Option.some.injEq,
        Prod.mk.injEq, Nat.shiftLeft_eq] at hread
      obtain ⟨_, hfirst, _, hsecond, _, hthird, _, hfourth, rfl, rfl⟩ := hread
      refine ⟨[_, _, _, _], rfl, ?_⟩
      convert Hex4.intro hfirst hsecond hthird hfourth using 1
      omega
    · cases hread
  · rintro ⟨_, rfl, hfirst, hsecond, hthird, hfourth⟩
    simp only [getCodepoint, List.cons_append, hfirst, hsecond, hthird, hfourth,
      Option.bind_eq_bind, Option.bind_some, Nat.shiftLeft_eq]
    congr 2
    omega

theorem or_eq_add {high low width : ℕ} (hlow : low < 2 ^ width) :
    high <<< width ||| low = low + high * 2 ^ width := by
  rw [← Nat.shiftLeft_add_eq_or_of_lt hlow, Nat.shiftLeft_eq, Nat.add_comm]

/-- The bytes that are added are the encoding of the character. -/
theorem addCodepoint_eq_encode (hcodepoint : codepoint < 0x110000) :
    addCodepoint codepoint = encode codepoint := by
  have htail (n : ℕ) : 0x80 ||| n &&& 0x3F = n % 64 + 0x80 := by
    rw [show 0x3F = 2 ^ 6 - 1 from rfl, Nat.and_two_pow_sub_one_eq_mod]
    exact @or_eq_add 2 _ 6 (Nat.mod_lt _ (by decide))
  by_cases hone : codepoint ≤ 0x7F
  · rw [addCodepoint, encode, if_pos (by omega), if_pos hone]
  · rw [addCodepoint, encode, if_neg (by omega), if_neg hone]
    simp only [htail, Nat.shiftRight_eq_div_pow]
    split_ifs with htwo hthree
    · have hfirst : 0xC0 ||| codepoint / 2 ^ 6 = codepoint / 64 + 0xC0 :=
        @or_eq_add 3 _ 6 (by omega)
      rw [hfirst]
    · have hfirst : 0xE0 ||| codepoint / 2 ^ 12 = codepoint / 4096 + 0xE0 :=
        @or_eq_add 7 _ 5 (by omega)
      rw [hfirst]
    · have hfirst : 0xF0 ||| codepoint / 2 ^ 18 = codepoint / 262144 + 0xF0 :=
        @or_eq_add 15 _ 4 (by omega)
      rw [hfirst]

/-- What follows `\\u` is the value of a character, or two surrogates. -/
theorem scanUnicodeEscape_sound
    (hscan : scanUnicodeEscape input = some (added, after)) :
    ∃ spelling, 0x5C :: 0x75 :: input = spelling ++ after ∧
      Spells spelling added := by
  rw [scanUnicodeEscape, Option.bind_eq_bind, Option.bind_eq_some_iff] at hscan
  obtain ⟨⟨codepoint1, rest⟩, hfirst, hscan⟩ := hscan
  obtain ⟨digits, rfl, hdigits⟩ := getCodepoint_eq_some_iff.1 hfirst
  have hlt := hdigits.lt
  dsimp only at hscan
  split_ifs at hscan with hhigh hlow
  · split at hscan
    · next next following rest =>
      split_ifs at hscan with hescape
      rw [Option.bind_eq_some_iff] at hscan
      obtain ⟨⟨codepoint2, rest⟩, hsecond, hscan⟩ := hscan
      obtain ⟨lowDigits, rfl, hlowDigits⟩ := getCodepoint_eq_some_iff.1 hsecond
      obtain ⟨rfl, rfl⟩ := hescape
      dsimp only at hscan
      split_ifs at hscan with hlow
      simp only [Option.some.injEq, Prod.mk.injEq] at hscan
      obtain ⟨rfl, rfl⟩ := hscan
      have hvalue : (codepoint1 <<< 10) + codepoint2 - 0x35FDC00 =
          0x10000 + (codepoint1 - 0xD800) * 0x400 + (codepoint2 - 0xDC00) := by
        rw [Nat.shiftLeft_eq]
        omega
      rw [hvalue, addCodepoint_eq_encode (by omega)]
      refine ⟨_, ?_, .surrogates hdigits hlowDigits hhigh hlow⟩
      simp only [List.cons_append, List.append_assoc]
    · cases hscan
  · cases hscan
    rw [addCodepoint_eq_encode (by omega)]
    exact ⟨_, rfl, .unicode hdigits (by rw [IsScalar]; omega)⟩

theorem scanUnicodeEscape_unicode (hdigits : Hex4 digits value)
    (hvalue : IsScalar value) :
    scanUnicodeEscape (digits ++ after) = some (encode value, after) := by
  have hread : getCodepoint (digits ++ after) = some (value, after) :=
    getCodepoint_eq_some_iff.2 ⟨digits, rfl, hdigits⟩
  rw [IsScalar] at hvalue
  rw [scanUnicodeEscape, hread, Option.bind_eq_bind, Option.bind_some]
  dsimp only
  rw [if_neg (by omega), if_neg (by omega), addCodepoint_eq_encode (by omega)]

theorem scanUnicodeEscape_surrogates {lowDigits : ByteString} {high low : ℕ}
    (hdigits : Hex4 digits high) (hlowDigits : Hex4 lowDigits low)
    (hhigh : 0xD800 ≤ high ∧ high ≤ 0xDBFF)
    (hlow : 0xDC00 ≤ low ∧ low ≤ 0xDFFF) :
    scanUnicodeEscape (digits ++ 0x5C :: 0x75 :: lowDigits ++ after) =
      some (encode (0x10000 + (high - 0xD800) * 0x400 + (low - 0xDC00)), after) := by
  have hread : getCodepoint (digits ++ 0x5C :: 0x75 :: (lowDigits ++ after)) =
      some (high, 0x5C :: 0x75 :: (lowDigits ++ after)) :=
    getCodepoint_eq_some_iff.2 ⟨digits, rfl, hdigits⟩
  have hreadLow : getCodepoint (lowDigits ++ after) = some (low, after) :=
    getCodepoint_eq_some_iff.2 ⟨lowDigits, rfl, hlowDigits⟩
  have hvalue : (high <<< 10) + low - 0x35FDC00 =
      0x10000 + (high - 0xD800) * 0x400 + (low - 0xDC00) := by
    rw [Nat.shiftLeft_eq]
    omega
  simp only [List.append_assoc, List.cons_append]
  rw [scanUnicodeEscape, hread, Option.bind_eq_bind, Option.bind_some]
  dsimp only
  rw [if_pos hhigh, if_pos ⟨rfl, rfl⟩, hreadLow, Option.bind_some]
  dsimp only
  rw [if_pos hlow, hvalue, addCodepoint_eq_encode (by omega)]

theorem nextByteInRange_eq_some_iff {ranges : List (ℕ × ℕ)} :
    nextByteInRange ranges rest = some (added, after) ↔
      rest = added ++ after ∧ List.Forall₂
        (fun byte range => range.1 ≤ byte.toNat ∧ byte.toNat ≤ range.2)
        added ranges := by
  induction ranges generalizing rest added with
  | nil =>
      rw [nextByteInRange, List.forall₂_nil_right_iff]
      constructor
      · rintro ⟨⟩
        exact ⟨rfl, rfl⟩
      · rintro ⟨rfl, rfl⟩
        rfl
  | cons range ranges ih =>
      rw [List.forall₂_cons_right_iff]
      cases rest with
      | nil =>
          rw [nextByteInRange]
          constructor
          · rintro ⟨⟩
          · rintro ⟨heq, byte, bytes, -, -, rfl⟩
            cases heq
      | cons current rest =>
          rw [nextByteInRange]
          constructor
          · intro hread
            split_ifs at hread with hrange
            obtain ⟨⟨bytes, _⟩, hread, heq⟩ := Option.map_eq_some_iff.1 hread
            cases heq
            obtain ⟨rfl, hall⟩ := ih.1 hread
            exact ⟨rfl, current, bytes, hrange, hall, rfl⟩
          · rintro ⟨heq, byte, bytes, hrange, hall, rfl⟩
            rw [List.cons_append, List.cons.injEq] at heq
            obtain ⟨rfl, rfl⟩ := heq
            rw [if_pos hrange, ih.2 ⟨rfl, hall⟩]
            rfl

/-- The ranges behind a first byte are those of the sequences. -/
theorem sequence_iff_byteRanges :
    Sequence (current :: added) ∧
        (0x1F < current.toNat ∧ current.toNat ≠ 0x22 ∧ current.toNat ≠ 0x5C) ↔
      ∃ ranges, byteRanges current.toNat = some ranges ∧ List.Forall₂
        (fun byte range => range.1 ≤ byte.toNat ∧ byte.toNat ≤ range.2)
        added ranges := by
  constructor
  · rintro ⟨hbytes, hplain⟩
    unfold byteRanges
    rw [if_neg (by omega), if_neg (by omega)]
    cases hbytes with
    | one hbyte => exact ⟨_, if_pos hbyte, .nil⟩
    | two hfirst hlast =>
        rw [if_neg (by omega), if_neg (by omega), if_pos hfirst.2]
        exact ⟨_, rfl, .cons hlast .nil⟩
    | @three _ second last hfirst hsecond hoverlong hsurrogate hlast =>
        rw [if_neg (by omega), if_neg (by omega), if_neg (by omega)]
        rw [Tail] at hsecond
        split_ifs with hE0 hED hEF
        · exact ⟨_, rfl, .cons ⟨hoverlong hE0, hsecond.2⟩ (.cons hlast .nil)⟩
        · exact ⟨_, rfl, .cons ⟨hsecond.1, hsurrogate hED⟩ (.cons hlast .nil)⟩
        · exact ⟨_, rfl, .cons hsecond (.cons hlast .nil)⟩
        all_goals omega
    | @four _ second third last hfirst hsecond hoverlong hlarge hthird hlast =>
        rw [if_neg (by omega), if_neg (by omega), if_neg (by omega),
          if_neg (by omega), if_neg (by omega), if_neg (by omega)]
        rw [Tail] at hsecond
        split_ifs with hF0 hF3 hF4
        · exact ⟨_, rfl, .cons ⟨hoverlong hF0, hsecond.2⟩
            (.cons hthird (.cons hlast .nil))⟩
        · exact ⟨_, rfl, .cons hsecond (.cons hthird (.cons hlast .nil))⟩
        · exact ⟨_, rfl, .cons ⟨hsecond.1, hlarge hF4⟩
            (.cons hthird (.cons hlast .nil))⟩
        · omega
  · rintro ⟨ranges, hranges, hall⟩
    unfold byteRanges at hranges
    by_cases hcontrol : current.toNat ≤ 0x1F
    · rw [if_pos hcontrol] at hranges
      cases hranges
    rw [if_neg hcontrol] at hranges
    by_cases hcase : current.toNat = 0x22 ∨ current.toNat = 0x5C
    · rw [if_pos hcase] at hranges
      cases hranges
    rw [if_neg hcase] at hranges
    refine ⟨?_, by omega⟩
    by_cases hone : current.toNat ≤ 0x7F
    · rw [if_pos hone] at hranges
      cases hranges
      cases hall
      exact .one hone
    rw [if_neg hone] at hranges
    by_cases hnone : current.toNat < 0xC2
    · rw [if_pos hnone] at hranges
      cases hranges
    rw [if_neg hnone] at hranges
    by_cases htwo : current.toNat ≤ 0xDF
    · rw [if_pos htwo] at hranges
      cases hranges
      obtain _ | ⟨hlast, _ | _⟩ := hall
      exact .two (by omega) hlast
    rw [if_neg htwo] at hranges
    by_cases hE0 : current.toNat = 0xE0
    · rw [if_pos hE0] at hranges
      cases hranges
      obtain _ | ⟨hsecond, _ | ⟨hlast, _ | _⟩⟩ := hall
      exact .three (by omega) ⟨by omega, by omega⟩ (by omega) (by omega) hlast
    rw [if_neg hE0] at hranges
    by_cases hED : current.toNat = 0xED
    · rw [if_pos hED] at hranges
      cases hranges
      obtain _ | ⟨hsecond, _ | ⟨hlast, _ | _⟩⟩ := hall
      exact .three (by omega) ⟨by omega, by omega⟩ (by omega) (by omega) hlast
    rw [if_neg hED] at hranges
    by_cases hEF : current.toNat ≤ 0xEF
    · rw [if_pos hEF] at hranges
      cases hranges
      obtain _ | ⟨hsecond, _ | ⟨hlast, _ | _⟩⟩ := hall
      exact .three (by omega) hsecond (by omega) (by omega) hlast
    rw [if_neg hEF] at hranges
    by_cases hF0 : current.toNat = 0xF0
    · rw [if_pos hF0] at hranges
      cases hranges
      obtain _ | ⟨hsecond, _ | ⟨hthird, _ | ⟨hlast, _ | _⟩⟩⟩ := hall
      exact .four (by omega) ⟨by omega, by omega⟩ (by omega) (by omega) hthird hlast
    rw [if_neg hF0] at hranges
    by_cases hF3 : current.toNat ≤ 0xF3
    · rw [if_pos hF3] at hranges
      cases hranges
      obtain _ | ⟨hsecond, _ | ⟨hthird, _ | ⟨hlast, _ | _⟩⟩⟩ := hall
      exact .four (by omega) hsecond (by omega) (by omega) hthird hlast
    rw [if_neg hF3] at hranges
    by_cases hF4 : current.toNat = 0xF4
    · rw [if_pos hF4] at hranges
      cases hranges
      obtain _ | ⟨hsecond, _ | ⟨hthird, _ | ⟨hlast, _ | _⟩⟩⟩ := hall
      exact .four (by omega) ⟨by omega, by omega⟩ (by omega) (by omega) hthird hlast
    · rw [if_neg hF4] at hranges
      cases hranges

/-- The escapes and the sequences are what one turn of the loop reads. -/
theorem scanCharacter_eq_some_iff :
    scanCharacter current rest = some (added, after) ↔
      ∃ spelling, current :: rest = spelling ++ after ∧ Spells spelling added := by
  constructor
  · intro hscan
    unfold scanCharacter at hscan
    split at hscan
    · next hescape =>
      subst hescape
      split at hscan
      · cases hscan
      · next name rest =>
        split at hscan
        · next hunicode =>
          subst hunicode
          exact scanUnicodeEscape_sound hscan
        · obtain ⟨byte, hname, heq⟩ := Option.map_eq_some_iff.1 hscan
          cases heq
          exact ⟨[0x5C, name], rfl, .short hname⟩
    · simp only [Option.bind_eq_bind, Option.bind_eq_some_iff] at hscan
      obtain ⟨ranges, hranges, ⟨bytes, tail⟩, hread, heq⟩ := hscan
      cases heq
      obtain ⟨rfl, hall⟩ := nextByteInRange_eq_some_iff.1 hread
      obtain ⟨hbytes, hplain⟩ := sequence_iff_byteRanges.2 ⟨ranges, hranges, hall⟩
      exact ⟨current :: bytes, rfl, .plain hbytes hplain⟩
  · rintro ⟨spelling, heq, hspells⟩
    cases hspells with
    | plain hbytes hplain =>
        simp only [List.cons_append, List.cons.injEq] at heq
        obtain ⟨rfl, rfl⟩ := heq
        obtain ⟨ranges, hranges, hall⟩ := sequence_iff_byteRanges.1 ⟨hbytes, hplain⟩
        have hread := nextByteInRange_eq_some_iff.2 ⟨@rfl _ (_ ++ after), hall⟩
        have hescape : current ≠ 0x5C := fun hescape =>
          hplain.2.2 (congrArg UInt8.toNat hescape)
        simp only [scanCharacter, if_neg hescape, hranges, hread,
          Option.bind_eq_bind, Option.bind_some]
    | @short name _ hname =>
        simp only [List.cons_append, List.nil_append, List.cons.injEq] at heq
        obtain ⟨rfl, rfl⟩ := heq
        have hunicode : name ≠ 0x75 := by
          rintro rfl
          cases hname
        simp only [scanCharacter, if_true, if_neg hunicode, hname, Option.map_some]
    | unicode hdigits hvalue =>
        simp only [List.cons_append, List.cons.injEq] at heq
        obtain ⟨rfl, rfl⟩ := heq
        exact scanUnicodeEscape_unicode hdigits hvalue
    | surrogates hdigits hlowDigits hhigh hlow =>
        simp only [List.cons_append, List.cons.injEq] at heq
        obtain ⟨rfl, rfl⟩ := heq
        exact scanUnicodeEscape_surrogates hdigits hlowDigits hhigh hlow

theorem Spells.length_pos (hspells : Spells spelling added) :
    0 < spelling.length := by
  cases hspells <;> exact Nat.succ_pos _

theorem length_scanCharacter (hscan : scanCharacter current rest = some (added, after)) :
    after.length < (current :: rest).length := by
  obtain ⟨spelling, heq, hspells⟩ := scanCharacter_eq_some_iff.1 hscan
  rw [heq, List.length_append]
  exact Nat.lt_add_of_pos_left hspells.length_pos

end Characters

/-! ## Tokens -/

/-- `lexer::scan_string`, behind the opening quotation mark. -/
def scanString (input : ByteString) : Option (ByteString × ByteString) :=
  match input with
  | [] => none
  | current :: rest =>
      if current = 0x22 then some ([], rest)
      else
        match _hscan : scanCharacter current rest with
        | none => none
        | some (added, after) =>
            (scanString after).map fun (content, after) => (added ++ content, after)
termination_by input.length
decreasing_by exact length_scanCharacter _hscan

def isWhitespace (byte : Byte) : Bool :=
  byte = 0x20 || byte = 0x09 || byte = 0x0A || byte = 0x0D

/-- `lexer::scan_literal`, behind the first character. -/
def scanLiteral (literalText : ByteString) (token : Token) (input : ByteString) :
    Option (Token × ByteString) :=
  if literalText.isPrefixOf input then
    some (token, input.drop literalText.length)
  else none

/-- The switch of `lexer::scan`. -/
def scanFrom (current : Byte) (rest : ByteString) : Option (Token × ByteString) :=
  if current = 0x5B then some (.beginArray, rest)
  else if current = 0x5D then some (.endArray, rest)
  else if current = 0x7B then some (.beginObject, rest)
  else if current = 0x7D then some (.endObject, rest)
  else if current = 0x3A then some (.nameSeparator, rest)
  else if current = 0x2C then some (.valueSeparator, rest)
  else if current = 0x74 then scanLiteral [0x72, 0x75, 0x65] .literalTrue rest
  else if current = 0x66 then
    scanLiteral [0x61, 0x6C, 0x73, 0x65] .literalFalse rest
  else if current = 0x6E then scanLiteral [0x75, 0x6C, 0x6C] .literalNull rest
  else if current = 0x22 then
    (scanString rest).map fun (content, rest) => (.valueString content, rest)
  else none

/-- `lexer::scan`, behind the byte order mark. -/
def scan (input : ByteString) : Option (Token × ByteString) :=
  match input.dropWhile isWhitespace with
  | [] => none
  | current :: rest => scanFrom current rest

/-- `lexer::skip_bom`. -/
def skipBom : ByteString → Option ByteString
  | first :: rest =>
      if first = 0xEF then
        if [0xBB, 0xBF].isPrefixOf rest then some (rest.drop 2) else none
      else some (first :: rest)
  | [] => some []

/-! ## The texts of tokens -/

/-- The text of a string between its quotation marks, and its content. -/
inductive Body : ByteString → ByteString → Prop
  | nil : Body [] []
  | cons {spelling added body content : ByteString}
      (hspells : Spells spelling added) (hbody : Body body content) :
      Body (spelling ++ body) (added ++ content)

inductive Lexeme : Token → ByteString → Prop
  | beginArray : Lexeme .beginArray [0x5B]
  | endArray : Lexeme .endArray [0x5D]
  | beginObject : Lexeme .beginObject [0x7B]
  | endObject : Lexeme .endObject [0x7D]
  | nameSeparator : Lexeme .nameSeparator [0x3A]
  | valueSeparator : Lexeme .valueSeparator [0x2C]
  | literalTrue : Lexeme .literalTrue [0x74, 0x72, 0x75, 0x65]
  | literalFalse : Lexeme .literalFalse [0x66, 0x61, 0x6C, 0x73, 0x65]
  | literalNull : Lexeme .literalNull [0x6E, 0x75, 0x6C, 0x6C]
  | valueString {body content : ByteString} (hbody : Body body content) :
      Lexeme (.valueString content) (0x22 :: (body ++ [0x22]))

/-- The token behind whitespace. -/
def Lexed (token : Token) (text : ByteString) : Prop :=
  ∃ blank lexeme, text = blank ++ lexeme ∧ (∀ byte ∈ blank, isWhitespace byte) ∧
    Lexeme token lexeme

section Tokens

variable {input rest after content added spelling text literalText : ByteString}
  {token : Token} {current : Byte}

/-- A character does not start with a quotation mark. -/
theorem Spells.head_ne (hspells : Spells (current :: spelling) added) :
    current ≠ 0x22 := by
  rintro rfl
  cases hspells with
  | plain _ hplain => exact hplain.2.1 rfl

theorem scanString_of_character (hquote : current ≠ 0x22)
    (hcharacter : scanCharacter current rest = some (added, after)) :
    scanString (current :: rest) =
      (scanString after).map fun (content, after) => (added ++ content, after) := by
  rw [scanString, if_neg hquote]
  split
  · next hnone => cases hcharacter.symm.trans hnone
  · next hsome =>
    cases hcharacter.symm.trans hsome
    rfl

theorem scanString_eq_some_iff : scanString input = some (content, after) ↔
    ∃ body, input = body ++ 0x22 :: after ∧ Body body content := by
  constructor
  · intro hscan
    fun_induction scanString input generalizing content with
    | case1 => cases hscan
    | case2 =>
        cases hscan
        exact ⟨[], rfl, .nil⟩
    | case3 => cases hscan
    | case4 current rest hquote added next hcharacter ih =>
        obtain ⟨⟨contents, _⟩, hscan, heq⟩ := Option.map_eq_some_iff.1 hscan
        cases heq
        obtain ⟨spelling, hsplit, hspells⟩ :=
          scanCharacter_eq_some_iff.1 hcharacter
        obtain ⟨body, rfl, hbody⟩ := ih hscan
        refine ⟨spelling ++ body, ?_, .cons hspells hbody⟩
        rw [hsplit, List.append_assoc]
  · rintro ⟨body, rfl, hbody⟩
    induction hbody with
    | nil =>
        rw [List.nil_append, scanString]
        rfl
    | @cons spelling added body content hspells hbody ih =>
        obtain ⟨current, spelling, rfl⟩ :=
          List.exists_cons_of_length_pos hspells.length_pos
        have hcharacter : scanCharacter current
            (spelling ++ (body ++ 0x22 :: after)) =
            some (added, body ++ 0x22 :: after) :=
          scanCharacter_eq_some_iff.2 ⟨current :: spelling, rfl, hspells⟩
        rw [List.append_assoc, List.cons_append, scanString_of_character
          hspells.head_ne hcharacter, ih, Option.map_some]

theorem scanLiteral_eq_some_iff {read : Token} :
    scanLiteral literalText token input = some (read, after) ↔
      read = token ∧ input = literalText ++ after := by
  rw [scanLiteral]
  constructor
  · intro hscan
    split at hscan
    · next hliteral =>
      cases hscan
      obtain ⟨tail, rfl⟩ := List.isPrefixOf_iff_prefix.1 hliteral
      exact ⟨rfl, by rw [List.drop_left]⟩
    · cases hscan
  · rintro ⟨rfl, rfl⟩
    rw [if_pos (List.isPrefixOf_iff_prefix.2 (List.prefix_append ..)),
      List.drop_left]

theorem scanFrom_eq_some_iff : scanFrom current rest = some (token, after) ↔
    ∃ lexeme, current :: rest = lexeme ++ after ∧ Lexeme token lexeme := by
  constructor
  · intro hscan
    unfold scanFrom at hscan
    by_cases hbeginArray : current = 0x5B
    · rw [if_pos hbeginArray] at hscan
      cases hscan
      exact hbeginArray ▸ ⟨_, rfl, .beginArray⟩
    rw [if_neg hbeginArray] at hscan
    by_cases hendArray : current = 0x5D
    · rw [if_pos hendArray] at hscan
      cases hscan
      exact hendArray ▸ ⟨_, rfl, .endArray⟩
    rw [if_neg hendArray] at hscan
    by_cases hbeginObject : current = 0x7B
    · rw [if_pos hbeginObject] at hscan
      cases hscan
      exact hbeginObject ▸ ⟨_, rfl, .beginObject⟩
    rw [if_neg hbeginObject] at hscan
    by_cases hendObject : current = 0x7D
    · rw [if_pos hendObject] at hscan
      cases hscan
      exact hendObject ▸ ⟨_, rfl, .endObject⟩
    rw [if_neg hendObject] at hscan
    by_cases hnameSeparator : current = 0x3A
    · rw [if_pos hnameSeparator] at hscan
      cases hscan
      exact hnameSeparator ▸ ⟨_, rfl, .nameSeparator⟩
    rw [if_neg hnameSeparator] at hscan
    by_cases hvalueSeparator : current = 0x2C
    · rw [if_pos hvalueSeparator] at hscan
      cases hscan
      exact hvalueSeparator ▸ ⟨_, rfl, .valueSeparator⟩
    rw [if_neg hvalueSeparator] at hscan
    by_cases hliteralTrue : current = 0x74
    · rw [if_pos hliteralTrue] at hscan
      obtain ⟨rfl, rfl⟩ := scanLiteral_eq_some_iff.1 hscan
      exact hliteralTrue ▸ ⟨_, rfl, .literalTrue⟩
    rw [if_neg hliteralTrue] at hscan
    by_cases hliteralFalse : current = 0x66
    · rw [if_pos hliteralFalse] at hscan
      obtain ⟨rfl, rfl⟩ := scanLiteral_eq_some_iff.1 hscan
      exact hliteralFalse ▸ ⟨_, rfl, .literalFalse⟩
    rw [if_neg hliteralFalse] at hscan
    by_cases hliteralNull : current = 0x6E
    · rw [if_pos hliteralNull] at hscan
      obtain ⟨rfl, rfl⟩ := scanLiteral_eq_some_iff.1 hscan
      exact hliteralNull ▸ ⟨_, rfl, .literalNull⟩
    rw [if_neg hliteralNull] at hscan
    by_cases hvalueString : current = 0x22
    · rw [if_pos hvalueString] at hscan
      obtain ⟨⟨content, _⟩, hscan, hpair⟩ := Option.map_eq_some_iff.1 hscan
      cases hpair
      obtain ⟨body, rfl, hbody⟩ := scanString_eq_some_iff.1 hscan
      subst hvalueString
      exact ⟨_, by simp, .valueString hbody⟩
    · rw [if_neg hvalueString] at hscan
      cases hscan
  · rintro ⟨lexeme, heq, hlexeme⟩
    cases hlexeme with
    | literalTrue =>
        obtain ⟨rfl, rfl⟩ := List.cons.inj heq
        exact scanLiteral_eq_some_iff.2 ⟨rfl, @rfl _ ([0x72, 0x75, 0x65] ++ after)⟩
    | literalFalse =>
        obtain ⟨rfl, rfl⟩ := List.cons.inj heq
        exact scanLiteral_eq_some_iff.2
          ⟨rfl, @rfl _ ([0x61, 0x6C, 0x73, 0x65] ++ after)⟩
    | literalNull =>
        obtain ⟨rfl, rfl⟩ := List.cons.inj heq
        exact scanLiteral_eq_some_iff.2 ⟨rfl, @rfl _ ([0x75, 0x6C, 0x6C] ++ after)⟩
    | valueString hbody =>
        rw [List.cons_append, List.append_assoc, List.cons.injEq] at heq
        obtain ⟨rfl, rfl⟩ := heq
        have hscan := scanString_eq_some_iff.2 ⟨_, @rfl _ (_ ++ 0x22 :: after), hbody⟩
        exact congrArg (Option.map _) hscan
    | _ =>
        obtain ⟨rfl, rfl⟩ := List.cons.inj heq
        rfl

theorem Lexeme.exists_head {lexeme : ByteString} (hlexeme : Lexeme token lexeme) :
    ∃ first tail, lexeme = first :: tail ∧ isWhitespace first = false := by
  cases hlexeme <;> exact ⟨_, _, rfl, rfl⟩

theorem scan_eq_some_iff : scan input = some (token, after) ↔
    ∃ text, input = text ++ after ∧ Lexed token text := by
  constructor
  · intro hscan
    rw [scan] at hscan
    split at hscan
    · cases hscan
    · next current rest hrest =>
      obtain ⟨lexeme, hsplit, hlexeme⟩ := scanFrom_eq_some_iff.1 hscan
      refine ⟨input.takeWhile isWhitespace ++ lexeme, ?_, _, lexeme, rfl,
        fun byte hbyte => List.mem_takeWhile_imp hbyte, hlexeme⟩
      rw [List.append_assoc, ← hsplit, ← hrest, List.takeWhile_append_dropWhile]
  · rintro ⟨text, rfl, blank, lexeme, rfl, hblank, hlexeme⟩
    obtain ⟨first, tail, rfl, hfirst⟩ := hlexeme.exists_head
    have hrest : (blank ++ first :: tail ++ after).dropWhile isWhitespace =
        first :: (tail ++ after) := by
      rw [List.append_assoc, List.dropWhile_append_of_pos hblank, List.cons_append,
        List.dropWhile_cons_of_neg (by simp [hfirst])]
    rw [scan, hrest]
    exact scanFrom_eq_some_iff.2 ⟨first :: tail, rfl, hlexeme⟩

theorem Lexed.scan (hlexed : Lexed token text) (after : ByteString) :
    scan (text ++ after) = some (token, after) :=
  scan_eq_some_iff.2 ⟨text, rfl, hlexed⟩

/-- Every token takes something off the input. -/
theorem length_scan (hscan : scan input = some (token, after)) :
    after.length < input.length := by
  obtain ⟨text, rfl, blank, lexeme, rfl, _, hlexeme⟩ := scan_eq_some_iff.1 hscan
  obtain ⟨first, tail, rfl, _⟩ := hlexeme.exists_head
  simp only [List.length_append, List.length_cons]
  omega

end Tokens

end TwitterLike.JsonLexer
