import Mathlib.Data.List.TakeWhile
import Mathlib.Data.Vector.Basic
import Mathlib.Tactic

/-!
# Fixed-size byte buffers

Bounds-checked copies into and out of a byte array of fixed size, little-endian
words, and zero-terminated strings.  A copy that would touch a byte outside the
array has no result, so the safety of a program that copies through these
operations is the statement that it has one.
-/

namespace TwitterLike.ByteBuffer

abbrev Byte := UInt8
abbrev ByteString := List Byte
abbrev Buffer (size : ℕ) := List.Vector Byte size

/-! ## Little-endian words -/

/-- The `width` low-order bytes of a number, least significant first. -/
def encodeLE : ℕ → ℕ → List Byte
  | 0, _ => []
  | width + 1, value => UInt8.ofNat value :: encodeLE width (value / 256)

def decodeLE : List Byte → ℕ
  | [] => 0
  | byte :: bytes => byte.toNat + 256 * decodeLE bytes

@[simp]
theorem length_encodeLE (width value : ℕ) :
    (encodeLE width value).length = width := by
  induction width generalizing value with
  | zero => rfl
  | succ width ih => simp [encodeLE, ih]

theorem decodeLE_lt (bytes : List Byte) :
    decodeLE bytes < 256 ^ bytes.length := by
  induction bytes with
  | nil => simp [decodeLE]
  | cons byte bytes ih =>
      have hbyte : byte.toNat < 256 := byte.toNat_lt
      rw [decodeLE, List.length_cons, pow_succ]
      omega

/-- Reading back a word that fits in its width gives the number that was
written. -/
theorem decodeLE_encodeLE {width value : ℕ} (hvalue : value < 256 ^ width) :
    decodeLE (encodeLE width value) = value := by
  induction width generalizing value with
  | zero =>
      have hzero : value = 0 := by simpa using hvalue
      simp [encodeLE, decodeLE, hzero]
  | succ width ih =>
      have hhigh : value / 256 < 256 ^ width := by
        rw [Nat.div_lt_iff_lt_mul (by norm_num)]
        rwa [pow_succ] at hvalue
      rw [encodeLE, decodeLE, ih hhigh, UInt8.toNat_ofNat']
      exact Nat.mod_add_div value 256

/-! ## Zero-terminated strings -/

/-- The string a C string function sees in an array: everything before the
first zero byte. -/
def cString (bytes : List Byte) : ByteString :=
  bytes.takeWhile (· ≠ 0)

@[simp]
theorem cString_nil : cString [] = [] := rfl

theorem zero_notMem_cString (bytes : List Byte) : 0 ∉ cString bytes := by
  intro hmem
  simpa using List.mem_takeWhile_imp hmem

theorem cString_eq_self_iff (bytes : List Byte) :
    cString bytes = bytes ↔ 0 ∉ bytes := by
  constructor
  · intro heq
    rw [← heq]
    exact zero_notMem_cString bytes
  · intro hnul
    rw [cString, List.takeWhile_eq_self_iff]
    intro byte hbyte
    have hne : byte ≠ 0 := fun hzero => hnul (hzero ▸ hbyte)
    simpa using hne

/-- A terminator after the array does not change the string seen in it. -/
@[simp]
theorem cString_append_zero (bytes : List Byte) :
    cString (bytes ++ [0]) = cString bytes := by
  induction bytes with
  | nil => simp [cString]
  | cons byte bytes ih =>
      by_cases hbyte : byte = 0
      · simp [cString, hbyte]
      · simpa [cString, hbyte] using ih

theorem length_cString_le (bytes : List Byte) :
    (cString bytes).length ≤ bytes.length :=
  (List.takeWhile_sublist _).length_le

/-! ## Copies into and out of a buffer -/

namespace Buffer

variable {size : ℕ}

def zeros (size : ℕ) : Buffer size :=
  List.Vector.replicate size 0

/-- Copy `bytes` into the buffer at `offset`. -/
def store (buffer : Buffer size) (offset : ℕ) (bytes : List Byte) :
    Option (Buffer size) :=
  if hbound : offset + bytes.length ≤ size then
    some ⟨buffer.toList.take offset ++ bytes ++
        buffer.toList.drop (offset + bytes.length), by
      simp only [List.length_append, List.length_take, List.length_drop,
        List.Vector.toList_length]
      omega⟩
  else none

/-- Copy `length` bytes out of the buffer from `offset` on. -/
def load (buffer : Buffer size) (offset length : ℕ) : Option (List Byte) :=
  if offset + length ≤ size then
    some ((buffer.toList.drop offset).take length)
  else none

theorem load_of_le (buffer : Buffer size) {offset length : ℕ}
    (hbound : offset + length ≤ size) :
    buffer.load offset length =
      some ((buffer.toList.drop offset).take length) :=
  if_pos hbound

theorem load_of_lt (buffer : Buffer size) {offset length : ℕ}
    (hbound : size < offset + length) : buffer.load offset length = none :=
  if_neg (by omega)

/-- A zeroed buffer into which the first bytes of `bytes` have been received,
as many as it holds. -/
def receive (bytes : List Byte) : Buffer size :=
  ⟨bytes.take size ++ List.replicate (size - bytes.length) 0, by
    simp only [List.length_append, List.length_take, List.length_replicate]
    omega⟩

/-- A full message leaves no trace of the zeroing. -/
theorem receive_toList (buffer : Buffer size) :
    receive buffer.toList = buffer := by
  apply List.Vector.toList_injective
  change buffer.toList.take size ++
      List.replicate (size - buffer.toList.length) 0 = buffer.toList
  rw [List.take_of_length_le (by simp)]
  simp

/-- A buffer that has been filled from the front: the bytes copied so far, then
zeros. -/
def Filled (buffer : Buffer size) (bytes : List Byte) : Prop :=
  bytes.length ≤ size ∧
    buffer.toList = bytes ++ List.replicate (size - bytes.length) 0

theorem filled_zeros (size : ℕ) : Filled (zeros size) [] := by
  refine ⟨Nat.zero_le _, ?_⟩
  simp [zeros, List.Vector.replicate, List.Vector.toList]

/-- The next copy of a front-to-back fill goes through when its field still
fits, and leaves a filled buffer. -/
theorem Filled.store_of_le {buffer : Buffer size} {bytes : List Byte}
    (hfilled : Filled buffer bytes) (field : List Byte) {offset : ℕ}
    (hoffset : offset = bytes.length) (hbound : offset + field.length ≤ size) :
    ∃ next, buffer.store offset field = some next ∧
      Filled next (bytes ++ field) := by
  subst hoffset
  refine ⟨_, dif_pos hbound, by simpa using hbound, ?_⟩
  change buffer.toList.take bytes.length ++ field ++
      buffer.toList.drop (bytes.length + field.length) = _
  rw [hfilled.2, List.take_left', ← List.drop_drop, List.drop_left',
    List.drop_replicate, List.length_append, Nat.sub_sub]
  · rfl
  · rfl

theorem store_of_lt (buffer : Buffer size) {offset : ℕ} {bytes : List Byte}
    (hbound : size < offset + bytes.length) :
    buffer.store offset bytes = none :=
  dif_neg (by omega)

end Buffer

end TwitterLike.ByteBuffer
