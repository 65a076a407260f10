import Mathlib.Data.List.Infix
import Mathlib.Data.Nat.Bitwise
import StoryMachine.Proofs.Reading

/-!
# Bytes in memory

* `Image.HoldsAt image place bytes` : the bytes stand in the image from a place on, and the last of them behind
  the first ones (`HoldsAt.right`);
* `Image.Holds image address bytes` : the bytes stand in the image from the place of an address on;
* `wordBytes`, `longBytes` : the bytes of a word, and of a number of four bytes, the high one first;
* `Holds.readByte`, `Holds.readWord`, `Holds.readLong` : reading gives what the image holds; `Holds.of_readByte`,
  `Holds.of_readWord` : and nothing else; `exists_readWord` : a word inside the image can be read.

Addresses reach every byte of an image of less than 2^32 bytes, and the address behind bytes that such an
image holds does not wrap around (`Holds.toNat_add`).
-/

namespace StoryMachine

/-! ## Words and their bytes -/

/-- A field below a shifted one adds to it. -/
theorem shiftLeft_or_eq_add {high low width : Nat} (h : low < 2 ^ width) :
    high <<< width ||| low = high * 2 ^ width + low := by
  rw [← Nat.shiftLeft_add_eq_or_of_lt h, Nat.shiftLeft_eq]

/-- The bytes of a word, the high one first. -/
def wordBytes (value : UInt16) : List UInt8 :=
  [(value >>> 8).toUInt8, value.toUInt8]

theorem toNat_word (high low : UInt8) : (word high low).toNat = high.toNat * 256 + low.toNat := by
  have hhigh := high.toNat_lt
  have hlow : low.toNat < 2 ^ 8 := low.toNat_lt
  have hshift : high.toNat <<< 8 % 2 ^ 16 = high.toNat <<< 8 := by
    rw [Nat.shiftLeft_eq]
    exact Nat.mod_eq_of_lt (by omega)
  unfold word
  rw [UInt16.toNat_or, UInt16.toNat_shiftLeft, UInt8.toNat_toUInt16, UInt8.toNat_toUInt16]
  change high.toNat <<< 8 % 2 ^ 16 ||| low.toNat = _
  rw [hshift]
  exact (shiftLeft_or_eq_add hlow).trans (by omega)

theorem word_of_wordBytes (value : UInt16) : word (value >>> 8).toUInt8 value.toUInt8 = value := by
  apply UInt16.toNat_inj.mp
  rw [toNat_word, UInt16.toNat_toUInt8, UInt16.toNat_toUInt8, UInt16.toNat_shiftRight]
  have hvalue := value.toNat_lt
  change value.toNat >>> 8 % 256 * 256 + value.toNat % 256 = _
  rw [Nat.shiftRight_eq_div_pow]
  omega

theorem wordBytes_word (high low : UInt8) : wordBytes (word high low) = [high, low] := by
  have hhigh : ((word high low) >>> 8).toUInt8 = high := by
    apply UInt8.toNat_inj.mp
    rw [UInt16.toNat_toUInt8, UInt16.toNat_shiftRight, toNat_word]
    have hlow := low.toNat_lt
    have hbound := high.toNat_lt
    change (high.toNat * 256 + low.toNat) >>> 8 % 256 = _
    rw [Nat.shiftRight_eq_div_pow]
    omega
  have hlow : (word high low).toUInt8 = low := by
    apply UInt8.toNat_inj.mp
    rw [UInt16.toNat_toUInt8, toNat_word]
    have hlow := low.toNat_lt
    change (high.toNat * 256 + low.toNat) % 256 = _
    omega
  rw [wordBytes, hhigh, hlow]

theorem toNat_byte_shiftLeft (byte : UInt8) {width : UInt32} (hwidth : width.toNat ≤ 24) :
    (byte.toUInt32 <<< width).toNat = byte.toNat * 2 ^ width.toNat := by
  have hpow : 2 ^ width.toNat ≤ 2 ^ 24 := Nat.pow_le_pow_right (by omega) hwidth
  have hlt : byte.toNat * 2 ^ width.toNat < 2 ^ 32 :=
    Nat.lt_of_lt_of_le (Nat.mul_lt_mul_of_pos_right byte.toNat_lt (Nat.two_pow_pos _))
      (Nat.le_trans (Nat.mul_le_mul_left _ hpow) (by decide))
  rw [UInt32.toNat_shiftLeft, UInt8.toNat_toUInt32, Nat.mod_eq_of_lt (by omega : width.toNat < 32),
    Nat.shiftLeft_eq]
  exact Nat.mod_eq_of_lt hlt

/-- A sum whose first part is a multiple of a power that bounds the second part. -/
theorem mul_or_eq_add {high low width : Nat} (h : low < 2 ^ width) :
    high * 2 ^ width ||| low = high * 2 ^ width + low := by
  rw [← Nat.shiftLeft_eq]
  exact shiftLeft_or_eq_add h |>.trans (by rw [Nat.shiftLeft_eq])

theorem toNat_long (a b c d : UInt8) :
    (a.toUInt32 <<< 24 ||| b.toUInt32 <<< 16 ||| c.toUInt32 <<< 8 ||| d.toUInt32).toNat =
      ((a.toNat * 256 + b.toNat) * 256 + c.toNat) * 256 + d.toNat := by
  have hb := b.toNat_lt
  have hc := c.toNat_lt
  have hd := d.toNat_lt
  rw [UInt32.toNat_or, UInt32.toNat_or, UInt32.toNat_or, toNat_byte_shiftLeft a (by decide),
    toNat_byte_shiftLeft b (by decide), toNat_byte_shiftLeft c (by decide), UInt8.toNat_toUInt32]
  change a.toNat * 2 ^ 24 ||| b.toNat * 2 ^ 16 ||| c.toNat * 2 ^ 8 ||| d.toNat = _
  have h1 : a.toNat * 2 ^ 24 ||| b.toNat * 2 ^ 16 = (a.toNat * 256 + b.toNat) * 2 ^ 16 := by
    rw [mul_or_eq_add (by omega)]
    omega
  have h2 : (a.toNat * 256 + b.toNat) * 2 ^ 16 ||| c.toNat * 2 ^ 8 =
      ((a.toNat * 256 + b.toNat) * 256 + c.toNat) * 2 ^ 8 := by
    rw [mul_or_eq_add (by omega)]
    omega
  rw [h1, h2, mul_or_eq_add (by omega)]
  omega

/-- The bytes of a number of four, the high one first. -/
def longBytes (value : UInt32) : List UInt8 :=
  [(value >>> 24).toUInt8, (value >>> 16).toUInt8, (value >>> 8).toUInt8, value.toUInt8]

theorem long_of_longBytes (value : UInt32) :
    (value >>> 24).toUInt8.toUInt32 <<< 24 ||| (value >>> 16).toUInt8.toUInt32 <<< 16 |||
      (value >>> 8).toUInt8.toUInt32 <<< 8 ||| value.toUInt8.toUInt32 = value := by
  apply UInt32.toNat_inj.mp
  have hvalue := value.toNat_lt
  rw [toNat_long]
  simp only [UInt32.toNat_toUInt8, UInt32.toNat_shiftRight]
  change ((value.toNat >>> 24 % 256 * 256 + value.toNat >>> 16 % 256) * 256 +
    value.toNat >>> 8 % 256) * 256 + value.toNat % 256 = _
  simp only [Nat.shiftRight_eq_div_pow]
  omega

namespace Image

/-- The address behind a byte that was read does not wrap around. -/
theorem toNat_behind_readByte {image : Image} {address : UInt32} {byte : UInt8}
    (h : image.readByte address = .ok byte) : (address + 1).toNat = address.toNat + 1 := by
  have hlt := Object.lt_length_of_readByte h
  have hlength := image.length.toNat_lt
  exact toNat_add_of_lt (by simp; omega)

/-- A word that ends inside the image can be read. -/
theorem exists_readWord {image : Image} (hsize : image.bytes.size < 0x100000000) {address : UInt32}
    (h : address.toNat + 2 ≤ image.bytes.size) : ∃ value, image.readWord address = .ok value := by
  have hsecond : (address + 1).toNat = address.toNat + 1 := toNat_add_of_lt (by simp; omega)
  have hinside : ¬ (address ≥ image.length ∨ address + 1 ≥ image.length) := by
    rw [not_or, ge_iff_le, ge_iff_le, UInt32.not_le, UInt32.not_le, UInt32.lt_iff_toNat_lt,
      UInt32.lt_iff_toNat_lt, toNat_length hsize]
    omega
  obtain ⟨high, hhigh⟩ : ∃ byte, image.cell address = .ok byte := exists_cell (by omega)
  obtain ⟨low, hlow⟩ : ∃ byte, image.cell (address + 1) = .ok byte := exists_cell (by omega)
  unfold readWord
  rw [if_neg hinside, hhigh, hlow]
  exact ⟨word high low, rfl⟩

/-! ## What an image holds -/

/-- The bytes stand in the image from the place on, which is a number and does not wrap around. -/
def HoldsAt (image : Image) (place : Nat) (bytes : List UInt8) : Prop :=
  bytes <+: image.bytes.toList.drop place

section
variable {image after : Image} {place : Nat} {bytes before rest : List UInt8}

theorem holdsAt_iff : image.HoldsAt place bytes ↔
    ∀ i (h : i < bytes.length), image.bytes[place + i]? = some bytes[i] := by
  unfold HoldsAt
  rw [List.prefix_iff_getElem?]
  simp only [List.getElem?_drop, Array.getElem?_toList]

theorem HoldsAt.congr (h : image.HoldsAt place bytes)
    (hsame : ∀ i, place ≤ i → i < place + bytes.length → after.bytes[i]? = image.bytes[i]?) :
    after.HoldsAt place bytes := by
  rw [holdsAt_iff] at h ⊢
  intro i hi
  rw [hsame (place + i) (by omega) (by omega), h i hi]

theorem HoldsAt.right (h : image.HoldsAt place (before ++ rest)) :
    image.HoldsAt (place + before.length) rest := by
  have hdrop := List.IsPrefix.drop h before.length
  rwa [List.drop_left, List.drop_drop] at hdrop

theorem HoldsAt.left (h : image.HoldsAt place (before ++ rest)) : image.HoldsAt place before :=
  (List.prefix_append before rest).trans h

end

/-- The bytes stand in the image from the address on. -/
def Holds (image : Image) (address : UInt32) (bytes : List UInt8) : Prop :=
  bytes <+: image.bytes.toList.drop address.toNat

instance (image : Image) (address : UInt32) (bytes : List UInt8) :
    Decidable (image.Holds address bytes) :=
  inferInstanceAs (Decidable (_ <+: _))

namespace Holds

variable {image : Image} {address : UInt32} {bytes before rest : List UInt8}

/-- Bytes that an image holds end inside it. -/
theorem end_le (h : image.Holds address bytes) (hbytes : 0 < bytes.length) :
    address.toNat + bytes.length ≤ image.bytes.size := by
  have hlength : bytes.length ≤ image.bytes.size - address.toNat := by
    simpa [List.length_drop] using h.length_le
  omega

theorem cell {byte : UInt8} (h : image.Holds address (byte :: rest)) :
    image.cell address = .ok byte := by
  obtain ⟨tail, htail⟩ := h
  have hbyte : image.bytes[address.toNat]? = some byte := by
    rw [← Array.getElem?_toList, ← List.head?_drop, ← htail]
    rfl
  unfold Image.cell
  rw [hbyte]

theorem of_cell {byte : UInt8} (h : image.cell address = .ok byte) : image.Holds address [byte] := by
  unfold Image.cell at h
  split at h
  · rename_i value hvalue
    cases h
    obtain ⟨hlt, rfl⟩ := Array.getElem?_eq_some_iff.mp hvalue
    refine ⟨image.bytes.toList.drop (address.toNat + 1), ?_⟩
    rw [← Array.getElem_toList hlt]
    exact (List.drop_eq_getElem_cons (by simpa using hlt)).symm
  · cases h

theorem append {behind : UInt32} (h : image.Holds address before) (hrest : image.Holds behind rest)
    (hbehind : behind.toNat = address.toNat + before.length) :
    image.Holds address (before ++ rest) := by
  obtain ⟨tail, htail⟩ := h
  unfold Holds at hrest ⊢
  rw [hbehind, ← List.drop_drop, ← htail, List.drop_left] at hrest
  rw [← htail]
  exact (List.prefix_append_right_inj before).mpr hrest

theorem of_readByte {byte : UInt8} (h : image.readByte address = .ok byte) :
    image.Holds address [byte] := by
  unfold Image.readByte at h
  split at h
  · cases h
  · exact of_cell h

theorem of_readWord {value : UInt16} (h : image.readWord address = .ok value) :
    image.Holds address (wordBytes value) := by
  obtain ⟨hbehind, hle⟩ := behind_readWord h
  unfold Image.readWord at h
  split at h
  · cases h
  · obtain ⟨high, hhigh, h⟩ := exists_of_bind_eq_ok h
    obtain ⟨low, hlow, h⟩ := exists_of_bind_eq_ok h
    cases h
    have hsecond : (address + 1).toNat = address.toNat + 1 := by
      have hlength := image.length.toNat_lt
      exact toNat_add_of_lt (by simp; omega)
    rw [wordBytes_word]
    exact (of_cell hhigh).append (of_cell hlow) hsecond

section
variable (hsize : image.bytes.size < 0x100000000)
include hsize

/-- An address up to the end of held bytes does not wrap around. -/
theorem toNat_add (h : image.Holds address bytes) (offset : UInt32)
    (hoffset : offset.toNat ≤ bytes.length) :
    (address + offset).toNat = address.toNat + offset.toNat := by
  have haddress := address.toNat_lt
  apply toNat_add_of_lt
  rcases Nat.eq_zero_or_pos bytes.length with hempty | hpos
  · omega
  · have hend := h.end_le hpos
    omega

theorem right (h : image.Holds address (before ++ rest)) (offset : UInt32)
    (hoffset : offset.toNat = before.length) : image.Holds (address + offset) rest := by
  have hadd := h.toNat_add hsize offset (by rw [List.length_append]; omega)
  have hright : image.HoldsAt (address.toNat + before.length) rest := HoldsAt.right h
  rwa [← hoffset, ← hadd] at hright

theorem lt_length (h : image.Holds address bytes) (offset : UInt32)
    (hoffset : offset.toNat < bytes.length) : ¬ address + offset ≥ image.length := by
  have hadd := h.toNat_add hsize offset (Nat.le_of_lt hoffset)
  have hend := h.end_le (by omega)
  rw [ge_iff_le, UInt32.not_le, UInt32.lt_iff_toNat_lt, toNat_length hsize]
  omega

theorem readByte {byte : UInt8} (h : image.Holds address (byte :: rest)) :
    image.readByte address = .ok byte := by
  have hinside := h.lt_length hsize 0 (Nat.zero_lt_succ _)
  rw [UInt32.add_zero] at hinside
  unfold Image.readByte
  rw [if_neg hinside, h.cell]

theorem readWord {value : UInt16} (h : image.Holds address (wordBytes value ++ rest)) :
    image.readWord address = .ok value := by
  have hfirst := h.lt_length hsize 0 (Nat.zero_lt_succ _)
  have hsecond := h.lt_length hsize 1 (Nat.succ_lt_succ (Nat.zero_lt_succ _))
  rw [UInt32.add_zero] at hfirst
  have hlow : image.Holds (address + 1) (value.toUInt8 :: rest) :=
    @right image address [(value >>> 8).toUInt8] _ hsize h 1 rfl
  unfold Image.readWord
  rw [if_neg (not_or.mpr ⟨hfirst, hsecond⟩), cell h, hlow.cell]
  exact congrArg Except.ok (word_of_wordBytes value)

theorem readLong {value : UInt32} (h : image.Holds address (longBytes value ++ rest)) :
    image.readLong address = .ok value := by
  have hlast := h.lt_length hsize 3 (by simp [longBytes])
  have h1 : image.Holds (address + 1) ((longBytes value).drop 1 ++ rest) :=
    @right image address ((longBytes value).take 1) _ hsize h 1 rfl
  have h2 : image.Holds (address + 2) ((longBytes value).drop 2 ++ rest) :=
    @right image address ((longBytes value).take 2) _ hsize h 2 rfl
  have h3 : image.Holds (address + 3) ((longBytes value).drop 3 ++ rest) :=
    @right image address ((longBytes value).take 3) _ hsize h 3 rfl
  unfold Image.readLong
  rw [if_neg hlast, cell h, cell h1, cell h2, cell h3]
  exact congrArg Except.ok (long_of_longBytes value)

end

end Holds

end Image

end StoryMachine
