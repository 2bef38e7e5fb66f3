import Mathlib.Algebra.Order.Ring.Int

/-! Borsh encodings: integers as fixed-width little-endian bytes, booleans and enumerations
as one byte, byte vectors and strings behind a four-byte length, tuples and records field by
field. Reading takes a value off the front of the bytes and leaves the rest. -/

abbrev Bytes := List UInt8

/-- Values that survive being written and read back, as long as their lengths can be
written at all. -/
class Borsh (α : Type) where
  encode : α → Bytes
  read : Bytes → Option (α × Bytes)
  Fits : α → Prop
  read_encode : ∀ value rest, Fits value → read (encode value ++ rest) = some (value, rest)

namespace Borsh
variable {α β : Type}

/-- Reading a whole value: nothing may be left. -/
def decode [Borsh α] (bytes : Bytes) : Option α :=
  match read bytes with
  | some (value, []) => some value
  | _ => none

theorem decode_encode [Borsh α] {value : α} (fits : Fits value) : decode (encode value) = some value := by
  have read := read_encode value [] fits
  rw [List.append_nil] at read
  rw [decode, read]

theorem encode_injective [Borsh α] {x y : α} (first : Fits x) (second : Fits y) (same : encode x = encode y) : x = y := by
  have decoded := congrArg (decode (α := α)) same
  rw [decode_encode first, decode_encode second] at decoded
  exact Option.some.inj decoded

/-- The `width` low-order bytes of a number, least significant first. -/
def littleEndian : ℕ → ℕ → Bytes
  | 0, _ => []
  | width + 1, n => UInt8.ofNat (n % 256) :: littleEndian width (n / 256)

def ofLittleEndian : Bytes → ℕ
  | [] => 0
  | byte :: rest => byte.toNat + 256 * ofLittleEndian rest

@[simp] theorem length_littleEndian (width n : ℕ) : (littleEndian width n).length = width := by
  induction width generalizing n with
  | zero => rfl
  | succ width ih => rw [littleEndian, List.length_cons, ih]

theorem ofLittleEndian_littleEndian (width n : ℕ) : ofLittleEndian (littleEndian width n) = n % 256 ^ width := by
  induction width generalizing n with
  | zero => rw [littleEndian, ofLittleEndian, Nat.pow_zero, Nat.mod_one]
  | succ width ih =>
    have byte : (UInt8.ofNat (n % 256)).toNat = n % 256 := by
      rw [UInt8.toNat_ofNat']
      exact Nat.mod_mod _ _
    rw [littleEndian, ofLittleEndian, byte, ih, Nat.pow_succ', Nat.mod_mul]

/-- A number of `width` bytes off the front. -/
def readNat (width : ℕ) (bytes : Bytes) : Option (ℕ × Bytes) :=
  if width ≤ bytes.length then some (ofLittleEndian (bytes.take width), bytes.drop width) else none

theorem readNat_littleEndian {width n : ℕ} (bound : n < 256 ^ width) (rest : Bytes) :
    readNat width (littleEndian width n ++ rest) = some (n, rest) := by
  have enough : width ≤ (littleEndian width n ++ rest).length := by simp
  rw [readNat, if_pos enough, List.take_left' (length_littleEndian width n), List.drop_left' (length_littleEndian width n),
    ofLittleEndian_littleEndian, Nat.mod_eq_of_lt bound]

/-- An unsigned integer of `width` bytes. -/
@[reducible] def unsigned (width : ℕ) : Borsh (BitVec (8 * width)) where
  encode value := littleEndian width value.toNat
  read bytes := (readNat width bytes).map fun (n, rest) => (BitVec.ofNat _ n, rest)
  Fits _ := True
  read_encode value rest _ := by
    have bound : value.toNat < 256 ^ width := by
      rw [show 256 = 2 ^ 8 from rfl, ← Nat.pow_mul]
      exact value.isLt
    rw [readNat_littleEndian bound, Option.map_some]
    dsimp only
    rw [BitVec.ofNat_toNat, BitVec.setWidth_eq]

instance : Borsh (BitVec 64) := unsigned 8

instance : Borsh (BitVec 128) := unsigned 16

/-- An enumeration: the index of the variant, in one byte. -/
@[reducible] def enumeration (index : α → UInt8) (variant : UInt8 → Option α)
    (inverse : ∀ value, variant (index value) = some value) : Borsh α where
  encode value := [index value]
  read
    | [] => none
    | byte :: rest => (variant byte).map fun value => (value, rest)
  Fits _ := True
  read_encode value rest _ := by
    dsimp only [List.cons_append, List.nil_append]
    rw [inverse, Option.map_some]

instance : Borsh Bool :=
  enumeration (fun value => if value then 1 else 0)
    (fun byte => if byte = 1 then some true else if byte = 0 then some false else none)
    (fun value => by cases value <;> rfl)

/-- A byte vector behind its length. -/
instance : Borsh Bytes where
  encode bytes := littleEndian 4 bytes.length ++ bytes
  read bytes := (readNat 4 bytes).bind fun (length, rest) =>
    if length ≤ rest.length then some (rest.take length, rest.drop length) else none
  Fits bytes := bytes.length < 256 ^ 4
  read_encode bytes rest fits := by
    have enough : bytes.length ≤ (bytes ++ rest).length := by simp
    rw [List.append_assoc, readNat_littleEndian fits, Option.bind_some]
    dsimp only
    rw [if_pos enough, List.take_left, List.drop_left]

def utf8 (text : String) : Bytes := text.toByteArray.data.toList

def ofUtf8? (bytes : Bytes) : Option String := String.fromUTF8? ⟨bytes.toArray⟩

theorem ofUtf8?_utf8 (text : String) : ofUtf8? (utf8 text) = some text := by
  have valid : text.toByteArray.IsValidUTF8 := text.isValidUTF8
  unfold ofUtf8? utf8 String.fromUTF8?
  rw [Array.toArray_toList]
  exact dif_pos valid

theorem utf8_injective {x y : String} (same : utf8 x = utf8 y) : x = y := by
  have texts := congrArg ofUtf8? same
  rw [ofUtf8?_utf8, ofUtf8?_utf8] at texts
  exact Option.some.inj texts

/-- A string is its bytes. -/
instance : Borsh String where
  encode text := encode (utf8 text)
  read bytes := (read bytes).bind fun (body, rest) => (ofUtf8? body).map fun text => (text, rest)
  Fits text := Fits (utf8 text)
  read_encode text rest fits := by
    rw [read_encode (utf8 text) rest fits, Option.bind_some]
    dsimp only
    rw [ofUtf8?_utf8, Option.map_some]

/-- Strings of any length have different encodings: a length that does not fit is written
truncated, but the text itself follows it whole. -/
theorem encode_string_injective {x y : String} (same : encode x = encode y) : x = y :=
  utf8_injective (List.append_inj same (by simp)).2

/-- One value after the other. -/
instance [Borsh α] [Borsh β] : Borsh (α × β) where
  encode pair := encode pair.1 ++ encode pair.2
  read bytes := (read bytes).bind fun (first, rest) => (read rest).map fun (second, rest) => ((first, second), rest)
  Fits pair := Fits pair.1 ∧ Fits pair.2
  read_encode pair rest fits := by
    rw [List.append_assoc, read_encode _ _ fits.1, Option.bind_some]
    dsimp only
    rw [read_encode _ _ fits.2, Option.map_some]

/-- A record is the tuple of its fields. -/
@[reducible] def record [Borsh α] (fields : β → α) (make : α → β) (inverse : ∀ value, make (fields value) = value) : Borsh β where
  encode value := encode (fields value)
  read bytes := (read bytes).map fun (tuple, rest) => (make tuple, rest)
  Fits value := Fits (fields value)
  read_encode value rest fits := by
    rw [read_encode _ _ fits, Option.map_some]
    dsimp only
    rw [inverse]

end Borsh
