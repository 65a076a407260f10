import StoryMachine.Proofs.Placement

/-!
# Bytes written

* `Image.Puts image place bytes after` : the bytes were put at a place, and nothing else has changed; `Puts.trans` :
  bytes put behind others; `Puts.overwrite` : bytes put over others; `Puts.unique` : nothing else can come of it;
* `Image.Lays address count step` : the step puts `count` bytes from an address on, and no more if it fails on the
  way, so that everything else stays as it was (`Lays.unchanged`, `Lays.bind`).
-/

namespace StoryMachine

namespace Image

/-! ## Bytes put into an image -/

/-- The bytes were put at a place of the image, and nothing else has changed. -/
structure Puts (image : Image) (place : Nat) (bytes : List UInt8) (after : Image) : Prop where
  sameStory : image.SameStory after
  get : ∀ i, after.bytes[i]? =
    if place ≤ i ∧ i < place + bytes.length then bytes[i - place]? else image.bytes[i]?

namespace Puts

variable {image middle after : Image} {place : Nat} {bytes first second : List UInt8}

theorem refl (image : Image) (place : Nat) : Puts image place [] image := by
  refine ⟨.refl image, fun i => ?_⟩
  rw [if_neg (by simp)]

theorem trans (h : Puts image place first middle)
    (h' : Puts middle (place + first.length) second after) :
    Puts image place (first ++ second) after := by
  refine ⟨h.sameStory.trans h'.sameStory, fun i => ?_⟩
  rw [h'.get, h.get, List.length_append]
  grind

/-- As many bytes put over others are all that is left to see. -/
theorem overwrite (h : Puts image place first middle) (h' : Puts middle place second after)
    (hlength : first.length = second.length) : Puts image place second after := by
  refine ⟨h.sameStory.trans h'.sameStory, fun i => ?_⟩
  rw [h'.get, h.get, hlength]
  split
  · rfl
  · rfl

/-- Bytes that stand at the place already can be put there. -/
theorem of_holdsAt (h : image.HoldsAt place bytes) : Puts image place bytes image := by
  refine ⟨.refl image, fun i => ?_⟩
  split
  · rename_i hi
    have hbyte := holdsAt_iff.mp h (i - place) (by omega)
    rw [Nat.add_sub_cancel' hi.1] at hbyte
    rw [hbyte, List.getElem?_eq_getElem]
  · rfl

/-- Nothing else can come of putting bytes at a place. -/
theorem unique (h : Puts image place bytes middle) (h' : Puts image place bytes after) : middle = after := by
  have hheader : middle.header = after.header := h.sameStory.header_eq.trans h'.sameStory.header_eq.symm
  have hbytes : middle.bytes = after.bytes := Array.ext_getElem? fun i => (h.get i).trans (h'.get i).symm
  have hpristine : middle.pristine = after.pristine := h.sameStory.pristine_eq.trans h'.sameStory.pristine_eq.symm
  cases middle
  cases after
  simp_all

theorem unchanged (h : Puts image place bytes after) {i : Nat}
    (hi : i < place ∨ place + bytes.length ≤ i) : after.bytes[i]? = image.bytes[i]? := by
  rw [h.get, if_neg (by omega)]

theorem holdsAt (h : Puts image place bytes after) : after.HoldsAt place bytes := by
  rw [holdsAt_iff]
  intro i hi
  rw [h.get, if_pos (by omega), Nat.add_sub_cancel_left, List.getElem?_eq_getElem hi]

/-- Bytes are put inside the image. -/
theorem end_le (h : Puts image place bytes after) (hbytes : 0 < bytes.length) :
    place + bytes.length ≤ image.bytes.size := by
  have hlast := holdsAt_iff.mp h.holdsAt (bytes.length - 1) (by omega)
  obtain ⟨hlt, -⟩ := Array.getElem?_eq_some_iff.mp hlast
  have hsize := h.sameStory.size_eq
  omega

end Puts

section
variable {image after : Image} {address : UInt32}

theorem puts_of_setCell {value : UInt8} (hwritable : image.writable address)
    (h : image.setCell address value = .ok after) : Puts image address.toNat [value] after := by
  have hwrite : Write image after := .byte hwritable h
  refine ⟨.of_write hwrite, fun i => ?_⟩
  unfold setCell at h
  split at h
  · cases h
    rw [Array.getElem?_set]
    grind
  · cases h

theorem puts_of_writeByte {value : UInt8} (h : image.writeByte address value = .ok after) :
    Puts image address.toNat [value] after := by
  unfold writeByte at h
  split at h
  · rename_i hwritable
    exact puts_of_setCell hwritable h
  · cases h

/-- Behind a byte that was put, addresses go on without wrapping around. -/
theorem Puts.toNat_add {bytes : List UInt8} (hgood : image.WellFormed)
    (h : Puts image address.toNat bytes after) {offset : UInt32} (hoffset : offset.toNat = bytes.length) :
    (address + offset).toNat = address.toNat + bytes.length := by
  have haddress := address.toNat_lt
  have hsize := hgood.size_lt
  rw [← hoffset]
  apply toNat_add_of_lt
  rcases Nat.eq_zero_or_pos bytes.length with hempty | hpos
  · omega
  · have hend := h.end_le hpos
    omega

theorem puts_of_writeWord (hgood : image.WellFormed) {value : UInt16}
    (h : image.writeWord address value = .ok after) :
    Puts image address.toNat (wordBytes value) after := by
  unfold writeWord at h
  split at h
  · rename_i hwritable
    rw [Bool.and_eq_true] at hwritable
    obtain ⟨middle, hfirst, hsecond⟩ := exists_of_bind_eq_ok h
    have hhigh := puts_of_setCell hwritable.1 hfirst
    have hwritable' : middle.writable (address + 1) := by
      rw [writable, hhigh.sameStory.header_eq]
      exact hwritable.2
    have hlow := puts_of_setCell hwritable' hsecond
    rw [hhigh.toNat_add hgood rfl] at hlow
    exact hhigh.trans hlow
  · cases h

end

/-! ## Steps that put bytes -/

/-- The step puts bytes from the address on, `count` of them or, if it fails, at most so many. -/
def Lays (address : UInt32) (count : Nat) (step : Exec Image Unit) : Prop :=
  ∀ image, image.WellFormed → ∃ bytes, image.Puts address.toNat bytes (step.perform image).2 ∧
    bytes.length ≤ count ∧ ((step.perform image).1 = .ok () → bytes.length = count)

namespace Lays

variable {address : UInt32} {count : Nat} {step : Exec Image Unit}

theorem unchanged (h : Lays address count step) {image : Image} (hgood : image.WellFormed) {i : Nat}
    (hi : i < address.toNat ∨ address.toNat + count ≤ i) :
    (step.perform image).2.bytes[i]? = image.bytes[i]? := by
  obtain ⟨bytes, hputs, hle, -⟩ := h image hgood
  exact hputs.unchanged (by omega)

/-- Bytes that stand below the address stay there. -/
theorem holdsAt (h : Lays address count step) {image after : Image} (hgood : image.WellFormed)
    (hperform : step.perform image = (.ok (), after)) {place : Nat} {bytes : List UInt8}
    (hholds : image.HoldsAt place bytes) (hend : place + bytes.length ≤ address.toNat) :
    after.HoldsAt place bytes := by
  have hafter : (step.perform image).2 = after := congrArg Prod.snd hperform
  rw [← hafter]
  exact hholds.congr fun i _ hi => h.unchanged hgood (.inl (Nat.lt_of_lt_of_le hi hend))

theorem nothing (address : UInt32) : Lays address 0 (Pure.pure ()) :=
  fun image _ => ⟨[], .refl image _, Nat.le_refl 0, fun _ => rfl⟩

theorem change {update : Image → Except Error Image}
    (h : ∀ image after, image.WellFormed → update image = .ok after →
      ∃ bytes, bytes.length = count ∧ image.Puts address.toNat bytes after) :
    Lays address count (.change update) := by
  intro image hgood
  rw [Exec.perform_change]
  cases hupdate : update image with
  | error error => exact ⟨[], .refl image _, Nat.zero_le _, nofun⟩
  | ok after =>
    obtain ⟨bytes, hlength, hputs⟩ := h image after hgood hupdate
    exact ⟨bytes, hputs, Nat.le_of_eq hlength, fun _ => hlength⟩

theorem query {α : Type} {read : Image → Except Error α} {next : α → Exec Image Unit}
    (h : ∀ value, Lays address count (next value)) : Lays address count (.query read >>= next) := by
  intro image hgood
  rw [Exec.perform_bind, Exec.perform_query]
  cases read image with
  | error error => exact ⟨[], .refl image _, Nat.zero_le _, nofun⟩
  | ok value => exact h value image hgood

/-- The bytes of two steps stand one behind the other. -/
theorem bind {behind : UInt32} {more : Nat} {next : Unit → Exec Image Unit} (h : Lays address count step)
    (offset : UInt32) (hoffset : offset.toNat = count) (hbehind : address + offset = behind)
    (hnext : ∀ value, Lays behind more (next value)) : Lays address (count + more) (step >>= next) := by
  intro image hgood
  obtain ⟨bytes, hputs, hle, hall⟩ := h image hgood
  rcases hperform : step.perform image with ⟨error | ⟨⟩, middle⟩
  · rw [hperform] at hputs
    rw [Exec.perform_bind_error hperform]
    exact ⟨bytes, hputs, Nat.le_add_right_of_le hle, nofun⟩
  · rw [hperform] at hputs hall
    have hlength := hall rfl
    obtain ⟨others, hputs', hle', hall'⟩ := hnext () middle (hputs.sameStory.wellFormed hgood)
    rw [← hbehind, hputs.toNat_add hgood (hoffset.trans hlength.symm)] at hputs'
    rw [Exec.perform_bind_ok hperform]
    refine ⟨bytes ++ others, hputs.trans hputs', ?_, fun hok => ?_⟩
    · rw [List.length_append]
      omega
    · rw [List.length_append, hlength, hall' hok]

end Lays

theorem lays_writeByte (address : UInt32) (value : UInt8) :
    Lays address 1 (.change (·.writeByte address value)) :=
  .change fun _ _ _ h => ⟨[value], rfl, puts_of_writeByte h⟩

theorem lays_writeWord (address : UInt32) (value : UInt16) :
    Lays address 2 (.change (·.writeWord address value)) :=
  .change fun _ _ hgood h => ⟨wordBytes value, rfl, puts_of_writeWord hgood h⟩

end Image

end StoryMachine
