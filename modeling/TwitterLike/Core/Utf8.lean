import Mathlib.Data.Nat.Notation
import Mathlib.Tactic.SplitIfs

/-!
# UTF-8 by ranges

The well-formed byte sequences of one character as ranges of bytes.  They are
the encodings of the characters.
-/

namespace TwitterLike.Utf8

/-- A continuation byte. -/
def Tail (byte : UInt8) : Prop :=
  0x80 ≤ byte.toNat ∧ byte.toNat ≤ 0xBF

/-- The bytes of one character.  Overlong forms, surrogates and values that are
too large are left out by the second byte. -/
inductive Sequence : List UInt8 → Prop
  | one {byte : UInt8} (hbyte : byte.toNat ≤ 0x7F) : Sequence [byte]
  | two {first last : UInt8} (hfirst : 0xC2 ≤ first.toNat ∧ first.toNat ≤ 0xDF)
      (hlast : Tail last) : Sequence [first, last]
  | three {first second last : UInt8}
      (hfirst : 0xE0 ≤ first.toNat ∧ first.toNat ≤ 0xEF) (hsecond : Tail second)
      (hoverlong : first.toNat = 0xE0 → 0xA0 ≤ second.toNat)
      (hsurrogate : first.toNat = 0xED → second.toNat ≤ 0x9F)
      (hlast : Tail last) : Sequence [first, second, last]
  | four {first second third last : UInt8}
      (hfirst : 0xF0 ≤ first.toNat ∧ first.toNat ≤ 0xF4) (hsecond : Tail second)
      (hoverlong : first.toNat = 0xF0 → 0x90 ≤ second.toNat)
      (hlarge : first.toNat = 0xF4 → second.toNat ≤ 0x8F)
      (hthird : Tail third) (hlast : Tail last) :
      Sequence [first, second, third, last]

/-- A number that is the value of a character. -/
def IsScalar (value : ℕ) : Prop :=
  value < 0xD800 ∨ 0xDFFF < value ∧ value < 0x110000

theorem isScalar_toNat (character : Char) : IsScalar character.toNat :=
  character.valid

theorem exists_char {value : ℕ} (hvalue : IsScalar value) :
    ∃ character : Char, character.toNat = value := by
  have hlt : value < UInt32.size := by
    rw [IsScalar] at hvalue
    change value < 2 ^ 32
    omega
  have htoNat : (UInt32.ofNatLT value hlt).toNat = value := UInt32.toNat_ofNatLT
  have hvalid : (UInt32.ofNatLT value hlt).isValidChar := by
    rw [UInt32.isValidChar, htoNat]
    exact hvalue
  exact ⟨⟨.ofNatLT value hlt, hvalid⟩, htoNat⟩

/-- The encoding of the character of that value. -/
def encode (value : ℕ) : List UInt8 :=
  if value ≤ 0x7F then [.ofNat value]
  else if value ≤ 0x7FF then
    [.ofNat (value / 64 + 0xC0), .ofNat (value % 64 + 0x80)]
  else if value ≤ 0xFFFF then
    [.ofNat (value / 4096 + 0xE0), .ofNat (value / 64 % 64 + 0x80),
      .ofNat (value % 64 + 0x80)]
  else
    [.ofNat (value / 262144 + 0xF0), .ofNat (value / 4096 % 64 + 0x80),
      .ofNat (value / 64 % 64 + 0x80), .ofNat (value % 64 + 0x80)]

theorem utf8EncodeChar_eq_encode (character : Char) :
    String.utf8EncodeChar character = encode character.toNat := by
  have hvalid := isScalar_toNat character
  rw [IsScalar, Char.toNat] at hvalid
  rw [String.utf8EncodeChar, encode, Char.toNat]
  generalize character.val.toNat = value at hvalid
  split_ifs with hone htwo hthree
  · rfl
  · have hmod : value / 64 % 0x20 = value / 64 := by omega
    rw [hmod]
  · have hmod : value / 4096 % 0x10 = value / 4096 := by omega
    rw [hmod]
  · have hmod : value / 262144 % 0x08 = value / 262144 := by omega
    rw [hmod]

theorem toNat_ofNat {n : ℕ} (hn : n < 0x100) : (UInt8.ofNat n).toNat = n :=
  UInt8.toNat_ofNat_of_lt' hn

theorem tail_ofNat {n : ℕ} (hn : n < 64) : Tail (.ofNat (n + 0x80)) := by
  rw [Tail, toNat_ofNat (by omega)]
  omega

theorem sequence_encode {value : ℕ} (hvalue : IsScalar value) :
    Sequence (encode value) := by
  have hlast : Tail (.ofNat (value % 64 + 0x80)) := tail_ofNat (by omega)
  have hmiddle : Tail (.ofNat (value / 64 % 64 + 0x80)) := tail_ofNat (by omega)
  have hhigh : Tail (.ofNat (value / 4096 % 64 + 0x80)) := tail_ofNat (by omega)
  rw [IsScalar] at hvalue
  rw [encode]
  split_ifs with hone htwo hthree
  · exact .one (by rw [toNat_ofNat (by omega)]; omega)
  · exact .two (by rw [toNat_ofNat (by omega)]; omega) hlast
  · refine .three ?_ hmiddle ?_ ?_ hlast <;>
      simp only [toNat_ofNat (by omega : value / 4096 + 0xE0 < 0x100),
        toNat_ofNat (by omega : value / 64 % 64 + 0x80 < 0x100)] <;> omega
  · refine .four ?_ hhigh ?_ ?_ hmiddle hlast <;>
      simp only [toNat_ofNat (by omega : value / 262144 + 0xF0 < 0x100),
        toNat_ofNat (by omega : value / 4096 % 64 + 0x80 < 0x100)] <;> omega

theorem ofNat_eq_iff {n : ℕ} {byte : UInt8} (hn : n < 0x100) :
    .ofNat n = byte ↔ n = byte.toNat := by
  rw [← UInt8.toNat_inj, toNat_ofNat hn]

/-- The value of a sequence. -/
theorem Sequence.exists_encode {bytes : List UInt8} (hbytes : Sequence bytes) :
    ∃ value, IsScalar value ∧ encode value = bytes := by
  unfold IsScalar
  cases hbytes with
  | @one byte hbyte =>
      refine ⟨byte.toNat, by omega, ?_⟩
      rw [encode, if_pos hbyte, UInt8.ofNat_toNat]
  | @two first last hfirst hlast =>
      rw [Tail] at hlast
      generalize hvalue :
        (first.toNat - 0xC0) * 64 + (last.toNat - 0x80) = value
      refine ⟨value, by omega, ?_⟩
      rw [encode, if_neg (by omega), if_pos (by omega),
        (ofNat_eq_iff (by omega)).2 (by omega : value / 64 + 0xC0 = first.toNat),
        (ofNat_eq_iff (by omega)).2 (by omega : value % 64 + 0x80 = last.toNat)]
  | @three first second last hfirst hsecond hoverlong hsurrogate hlast =>
      rw [Tail] at hsecond hlast
      generalize hvalue : (first.toNat - 0xE0) * 4096 +
        (second.toNat - 0x80) * 64 + (last.toNat - 0x80) = value
      refine ⟨value, by omega, ?_⟩
      rw [encode, if_neg (by omega), if_neg (by omega), if_pos (by omega),
        (ofNat_eq_iff (by omega)).2
          (by omega : value / 4096 + 0xE0 = first.toNat),
        (ofNat_eq_iff (by omega)).2
          (by omega : value / 64 % 64 + 0x80 = second.toNat),
        (ofNat_eq_iff (by omega)).2 (by omega : value % 64 + 0x80 = last.toNat)]
  | @four first second third last hfirst hsecond hoverlong hlarge hthird hlast =>
      rw [Tail] at hsecond hthird hlast
      generalize hvalue : (first.toNat - 0xF0) * 262144 +
        (second.toNat - 0x80) * 4096 + (third.toNat - 0x80) * 64 +
        (last.toNat - 0x80) = value
      refine ⟨value, by omega, ?_⟩
      rw [encode, if_neg (by omega), if_neg (by omega), if_neg (by omega),
        (ofNat_eq_iff (by omega)).2
          (by omega : value / 262144 + 0xF0 = first.toNat),
        (ofNat_eq_iff (by omega)).2
          (by omega : value / 4096 % 64 + 0x80 = second.toNat),
        (ofNat_eq_iff (by omega)).2
          (by omega : value / 64 % 64 + 0x80 = third.toNat),
        (ofNat_eq_iff (by omega)).2 (by omega : value % 64 + 0x80 = last.toNat)]

/-- The sequences are the encodings of the characters. -/
theorem sequence_iff {bytes : List UInt8} :
    Sequence bytes ↔ ∃ character, String.utf8EncodeChar character = bytes := by
  constructor
  · intro hbytes
    obtain ⟨value, hvalue, rfl⟩ := hbytes.exists_encode
    obtain ⟨character, rfl⟩ := exists_char hvalue
    exact ⟨character, utf8EncodeChar_eq_encode character⟩
  · rintro ⟨character, rfl⟩
    rw [utf8EncodeChar_eq_encode]
    exact sequence_encode (isScalar_toNat character)

end TwitterLike.Utf8
