import StoryMachine.Image
import StoryMachine.Proofs.Law

/-!
# What can happen to an image

* `Image.Passes` : the checks that a file must pass to be loaded, and `load_cases` : all that loading can end in;
* `Image.WellFormed` : the limits that every check of an address relies on; `load_wellFormed`;
* `Image.whole`, `load_eq_whole` : a file that does not give its length is loaded whole; `parse_append` : its
  header is in its first bytes;
* `getD_of_readByte`, `getD_of_readByte_error` : the byte that is read, and 0 outside the image;
* `readByte_guarded`, `readWord_guarded`, `readLong_guarded` : a read of a well-formed image never
  leaves the array of bytes, the last one for addresses that do not wrap around;
* `Image.Write` : the only change that is ever made to an image, one byte below the static base;
  `writes_of_writeByte`, `writes_of_writeWord`, and `Image.law` for steps made of writes;
* `Image.SameStory` : the header, the length, the pristine copy and static memory are the same. Writes
  and `reset` keep it (`SameStory.of_write`, `SameStory.reset`), and with it the checksum
  (`SameStory.checksum_eq`).
-/

namespace StoryMachine

/-- A sum of addresses that does not wrap around. -/
theorem toNat_add_of_lt {a b : UInt32} (h : a.toNat + b.toNat < 0x100000000) :
    (a + b).toNat = a.toNat + b.toNat := by
  rw [UInt32.toNat_add]
  exact Nat.mod_eq_of_lt h

theorem toNat_toUInt32_lt (word : UInt16) : word.toUInt32.toNat < 0x10000 := by
  rw [UInt16.toNat_toUInt32]
  exact word.toNat_lt

namespace Image

open Relation (ReflTransGen)

/-! ## Loading -/

/-- The length that a file is loaded with: the one that its header declares, or all of it if that one is blank. -/
def loadedLength (file : Array UInt8) : UInt32 :=
  if (Header.parse file).length = 0 then file.size.toUInt32 else (Header.parse file).length

/-- The image of the first bytes of a file. -/
def cut (file : Array UInt8) (length : UInt32) : Image where
  header := { Header.parse file with length }
  bytes := file.extract 0 length.toNat
  pristine := (file.extract 0 length.toNat).extract 0 (Header.parse file).staticBase.toNat

/-- A file passes the checks of its header. -/
structure Passes (file : Array UInt8) : Prop where
  header_le : headerSize ≤ file.size
  version_eq : (Header.parse file).version = 3
  length_le : loadedLength file ≤ file.size.toUInt32
  padding : file.all (· == 0) (loadedLength file).toNat
  le_static : headerSize.toUInt32 ≤ (Header.parse file).staticBase
  static_le : (Header.parse file).staticBase ≤ loadedLength file

/-- A file that passes the checks is cut to its length, and every other one is refused. -/
theorem load_cases (file : Array UInt8) :
    Passes file ∧ load file = .ok (cut file (loadedLength file)) ∨
      ¬ Passes file ∧ ∃ error, load file = .error error ∧ error.kind? = some .malformedHeader := by
  unfold load
  split
  · rename_i hshort
    exact .inr ⟨fun h => Nat.not_le.mpr hshort h.header_le, _, rfl, rfl⟩
  · rename_i hheader
    dsimp only
    rw [← loadedLength]
    split
    · rename_i hversion
      exact .inr ⟨fun h => hversion h.version_eq, _, rfl, rfl⟩
    · rename_i hversion
      split
      · rename_i hlength
        refine .inr ⟨fun h => ?_, _, rfl, rfl⟩
        rcases hlength with hlong | hpadding
        · exact UInt32.not_lt.mpr h.length_le hlong
        · exact hpadding h.padding
      · rename_i hlength
        rw [not_or, UInt32.not_lt, Classical.not_not] at hlength
        split
        · rename_i hstatic
          refine .inr ⟨fun h => ?_, _, rfl, rfl⟩
          rcases hstatic with hlow | hhigh
          · exact UInt32.not_lt.mpr h.le_static hlow
          · exact UInt32.not_lt.mpr h.static_le hhigh
        · rename_i hstatic
          rw [not_or, UInt32.not_lt, UInt32.not_lt] at hstatic
          have hpasses : Passes file :=
            ⟨Nat.not_lt.mp hheader, Classical.not_not.mp hversion, hlength.1, hlength.2, hstatic.1, hstatic.2⟩
          exact .inl ⟨hpasses, rfl⟩

theorem passes_of_load {file : Array UInt8} {image : Image} (h : load file = .ok image) :
    Passes file ∧ image = cut file (loadedLength file) := by
  rcases load_cases file with ⟨hpasses, hload⟩ | ⟨-, error, hload, -⟩
  · rw [hload] at h
    cases h
    exact ⟨hpasses, rfl⟩
  · rw [hload] at h
    cases h

theorem Passes.load_eq {file : Array UInt8} (h : Passes file) :
    load file = .ok (cut file (loadedLength file)) := by
  rcases load_cases file with ⟨-, hload⟩ | ⟨hfails, -⟩
  · exact hload
  · exact absurd h hfails

/-! ## Well-formed images -/

/-- Addresses reach every byte, dynamic memory lies inside the image and has a pristine copy, and the
tables begin below 2^16. -/
structure WellFormed (image : Image) : Prop where
  size_lt : image.bytes.size < 0x100000000
  static_le : image.header.staticBase.toNat ≤ image.bytes.size
  pristine_size : image.pristine.size = image.header.staticBase.toNat
  dictionary_lt : image.header.dictionary.toNat < 0x10000
  objects_lt : image.header.objects.toNat < 0x10000

theorem toNat_length {image : Image} (h : image.bytes.size < 0x100000000) :
    image.length.toNat = image.bytes.size := by
  unfold length
  exact UInt32.toNat_ofNat_of_lt' h

theorem WellFormed.toNat_length {image : Image} (h : image.WellFormed) :
    image.length.toNat = image.bytes.size :=
  Image.toNat_length h.size_lt

/-- What a loaded image is made of. -/
theorem of_load {file : Array UInt8} {image : Image} (h : load file = .ok image) :
    image.header = { Header.parse file with length := image.header.length } ∧
      image.bytes = file.extract 0 image.header.length.toNat ∧
      image.header.length.toNat ≤ file.size ∧
      image.header.staticBase ≤ image.header.length ∧
      image.pristine = image.bytes.extract 0 image.header.staticBase.toNat := by
  obtain ⟨hpasses, rfl⟩ := passes_of_load h
  refine ⟨rfl, rfl, ?_, hpasses.static_le, rfl⟩
  have hsize : file.size.toUInt32.toNat ≤ file.size := by
    rw [Nat.toUInt32, UInt32.toNat_ofNat']
    exact Nat.mod_le _ _
  exact Nat.le_trans (UInt32.le_iff_toNat_le.mp hpasses.length_le) hsize

theorem size_bytes_of_load {file : Array UInt8} {image : Image} (h : load file = .ok image) :
    image.bytes.size = image.header.length.toNat := by
  obtain ⟨-, hbytes, hlength, -⟩ := of_load h
  rw [hbytes, Array.size_extract]
  omega

theorem load_wellFormed {file : Array UInt8} {image : Image} (h : load file = .ok image) :
    image.WellFormed := by
  obtain ⟨hheader, -, -, hstatic, hpristine⟩ := of_load h
  have hsize := size_bytes_of_load h
  have hstatic' := UInt32.le_iff_toNat_le.mp hstatic
  refine ⟨?_, ?_, ?_, ?_, ?_⟩
  · rw [hsize]
    exact image.header.length.toNat_lt
  · rw [hsize]
    exact hstatic'
  · rw [hpristine, Array.size_extract]
    omega
  · rw [hheader]
    exact toNat_toUInt32_lt _
  · rw [hheader]
    exact toNat_toUInt32_lt _

/-- The header's fields are in the first bytes of a file. -/
theorem parse_append {front : List UInt8} (rest : List UInt8) (h : headerSize ≤ front.length) :
    Header.parse (front ++ rest).toArray = Header.parse front.toArray := by
  have hbyte : ∀ i < headerSize, (front ++ rest).toArray.getD i 0 = front.toArray.getD i 0 := by
    intro i hi
    rw [Array.getD_eq_getD_getElem?, Array.getD_eq_getD_getElem?, List.getElem?_toArray, List.getElem?_toArray,
      List.getElem?_append_left (by omega)]
  unfold Header.parse Header.wordAt
  simp (disch := decide) only [hbyte]

/-- The image of a file that is loaded whole. -/
def whole (file : Array UInt8) : Image where
  header := { Header.parse file with length := file.size.toUInt32 }
  bytes := file
  pristine := file.extract 0 (Header.parse file).staticBase.toNat

/-- A file whose length is blank is loaded whole. -/
theorem load_eq_whole {file : Array UInt8} (hsize : file.size < 0x100000000)
    (hheader : headerSize ≤ file.size) (hversion : (Header.parse file).version = 3)
    (hblank : (Header.parse file).length = 0)
    (hstatic : headerSize ≤ (Header.parse file).staticBase.toNat)
    (hend : (Header.parse file).staticBase.toNat ≤ file.size) :
    load file = .ok (whole file) := by
  have hnat : file.size.toUInt32.toNat = file.size := UInt32.toNat_ofNat_of_lt' hsize
  have hlength : loadedLength file = file.size.toUInt32 := if_pos hblank
  have hall : file.all (· == 0) file.size = true := by
    rw [Array.all_iff_forall]
    intro i _ hbounds
    omega
  have hpasses : Passes file := by
    refine ⟨hheader, hversion, by rw [hlength]; exact UInt32.le_refl _, ?_, ?_, ?_⟩
    · rwa [hlength, hnat]
    · exact UInt32.le_iff_toNat_le.mpr hstatic
    · rwa [hlength, UInt32.le_iff_toNat_le, hnat]
  rw [hpasses.load_eq, cut, hlength, hnat, Array.extract_size]
  rfl

/-! ## Reads -/

section Reads
variable {image : Image} {address : UInt32}

theorem exists_cell (h : address.toNat < image.bytes.size) : ∃ byte, image.cell address = .ok byte := by
  unfold cell
  rw [Array.getElem?_eq_getElem h]
  exact ⟨_, rfl⟩

theorem cell_guarded (h : address.toNat < image.bytes.size) : Guarded (image.cell address) := by
  obtain ⟨byte, hbyte⟩ := exists_cell h
  rw [hbyte]
  exact .ok byte

theorem lt_size_of_lt_length (h : image.WellFormed) (ha : ¬ address ≥ image.length) :
    address.toNat < image.bytes.size := by
  rw [← h.toNat_length]
  exact UInt32.lt_iff_toNat_lt.mp (UInt32.not_le.mp ha)

theorem getD_of_readByte {byte : UInt8} (h : image.readByte address = .ok byte) :
    image.bytes.getD address.toNat 0 = byte := by
  unfold readByte cell at h
  split at h
  · cases h
  · split at h
    · rename_i value hvalue
      cases h
      rw [Array.getD_eq_getD_getElem?, hvalue]
      rfl
    · cases h

theorem getD_of_readByte_error (hgood : image.WellFormed) {error : Error}
    (h : image.readByte address = .error error) : image.bytes.getD address.toNat 0 = 0 := by
  unfold readByte at h
  split at h
  · rename_i houtside
    have hsize := UInt32.le_iff_toNat_le.mp houtside
    rw [hgood.toNat_length] at hsize
    rw [Array.getD_eq_getD_getElem?, Array.getElem?_eq_none hsize]
    rfl
  · rename_i hinside
    obtain ⟨byte, hbyte⟩ := exists_cell (lt_size_of_lt_length hgood hinside)
    rw [hbyte] at h
    cases h

theorem readByte_guarded (h : image.WellFormed) (address : UInt32) :
    Guarded (image.readByte address) := by
  unfold readByte
  split
  · exact .error rfl
  · rename_i ha
    exact cell_guarded (lt_size_of_lt_length h ha)

theorem readWord_guarded (h : image.WellFormed) (address : UInt32) :
    Guarded (image.readWord address) := by
  unfold readWord
  split
  · exact .error rfl
  · rename_i ha
    rw [not_or] at ha
    refine .bind (cell_guarded (lt_size_of_lt_length h ha.1)) ?_
    intro _ _
    exact .bind (cell_guarded (lt_size_of_lt_length h ha.2)) fun _ _ => .pure _

/-- The address of a long number's last byte is checked after it has wrapped around, so the address
itself must be too small for that. -/
theorem readLong_guarded (h : image.WellFormed) (ha : address.toNat < 0x100000000 - 3) :
    Guarded (image.readLong address) := by
  unfold readLong
  split
  · exact .error rfl
  · rename_i hlast
    have hlast' := lt_size_of_lt_length h hlast
    have h3 : (address + 3).toNat = address.toNat + 3 := toNat_add_of_lt (by simp; omega)
    have h2 : (address + 2).toNat = address.toNat + 2 := toNat_add_of_lt (by simp; omega)
    have h1 : (address + 1).toNat = address.toNat + 1 := toNat_add_of_lt (by simp; omega)
    refine .bind (cell_guarded (by omega)) ?_
    intro _ _
    refine .bind (cell_guarded (by omega)) ?_
    intro _ _
    refine .bind (cell_guarded (by omega)) ?_
    intro _ _
    exact .bind (cell_guarded hlast') fun _ _ => .pure _

end Reads

/-! ## Writes -/

/-- One byte below the static base is replaced. -/
inductive Write : Image → Image → Prop
  | byte {image after : Image} {address : UInt32} {value : UInt8} (hwritable : image.writable address)
      (hset : image.setCell address value = .ok after) : Write image after

theorem Write.exists_eq {image after : Image} (h : Write image after) :
    ∃ address : UInt32, ∃ value, ∃ hsize : address.toNat < image.bytes.size,
      address < image.header.staticBase ∧
        after = { image with bytes := image.bytes.set address.toNat value hsize } := by
  obtain ⟨hwritable, hset⟩ := h
  rename_i address value
  unfold setCell at hset
  split at hset
  · rename_i hsize
    cases hset
    exact ⟨address, value, hsize, by simpa [writable] using hwritable, rfl⟩
  · cases hset

theorem Write.header_eq {image after : Image} (h : Write image after) :
    after.header = image.header := by
  obtain ⟨_, _, _, _, rfl⟩ := h.exists_eq
  rfl

theorem Write.size_eq {image after : Image} (h : Write image after) :
    after.bytes.size = image.bytes.size := by
  obtain ⟨_, _, _, _, rfl⟩ := h.exists_eq
  simp

theorem Write.pristine_eq {image after : Image} (h : Write image after) :
    after.pristine = image.pristine := by
  obtain ⟨_, _, _, _, rfl⟩ := h.exists_eq
  rfl

theorem WellFormed.write {image after : Image} (hwrite : Write image after) (h : image.WellFormed) :
    after.WellFormed := by
  obtain ⟨h1, h2, h3, h4, h5⟩ := h
  refine ⟨?_, ?_, ?_, ?_, ?_⟩
  · rwa [hwrite.size_eq]
  · rwa [hwrite.header_eq, hwrite.size_eq]
  · rwa [hwrite.header_eq, hwrite.pristine_eq]
  · rwa [hwrite.header_eq]
  · rwa [hwrite.header_eq]

theorem writes_of_writeByte {image after : Image} {address : UInt32} {value : UInt8}
    (h : image.writeByte address value = .ok after) : ReflTransGen Write image after := by
  unfold writeByte at h
  split at h
  · rename_i hwritable
    exact .single (.byte hwritable h)
  · cases h

theorem writes_of_writeWord {image after : Image} {address : UInt32} {value : UInt16}
    (h : image.writeWord address value = .ok after) : ReflTransGen Write image after := by
  unfold writeWord at h
  split at h
  · rename_i hwritable
    rw [Bool.and_eq_true] at hwritable
    cases hfirst : image.setCell address (value >>> 8).toUInt8 with
    | error e =>
      rw [hfirst] at h
      cases h
    | ok middle =>
      rw [hfirst] at h
      have hwrite : Write image middle := .byte hwritable.1 hfirst
      have hwritable' : middle.writable (address + 1) := by
        rw [writable, hwrite.header_eq]
        exact hwritable.2
      exact .tail (.single hwrite) (.byte hwritable' h)
  · cases h

theorem setCell_guarded {image : Image} {address : UInt32} (h : image.WellFormed)
    (hwritable : image.writable address) (value : UInt8) : Guarded (image.setCell address value) := by
  have hlt : address.toNat < image.bytes.size := by
    have hstatic := UInt32.lt_iff_toNat_lt.mp (of_decide_eq_true hwritable)
    exact Nat.lt_of_lt_of_le hstatic h.static_le
  unfold setCell
  rw [dif_pos hlt]
  exact .ok _

theorem writeByte_guarded {image : Image} (h : image.WellFormed) (address : UInt32) (value : UInt8) :
    Guarded (image.writeByte address value) := by
  unfold writeByte
  split
  · rename_i hwritable
    exact setCell_guarded h hwritable value
  · exact .error rfl

theorem writeWord_guarded {image : Image} (h : image.WellFormed) (address : UInt32)
    (value : UInt16) : Guarded (image.writeWord address value) := by
  unfold writeWord
  split
  · rename_i hwritable
    rw [Bool.and_eq_true] at hwritable
    refine .bind (setCell_guarded h hwritable.1 _) ?_
    intro middle hfirst
    have hwrite : Write image middle := .byte hwritable.1 hfirst
    refine setCell_guarded (h.write hwrite) ?_ _
    rw [writable, hwrite.header_eq]
    exact hwritable.2
  · exact .error rfl

/-- Steps on an image write to dynamic memory and nothing else. -/
def law : Law Image where
  Change := Write
  Good := WellFormed
  Raises _ error := error.operational
  good_of_change := WellFormed.write
  raises_of_change _ h := h

theorem obeys_writeByte (address : UInt32) (value : UInt8) :
    (Exec.change (fun image : Image => image.writeByte address value)).Obeys law :=
  .change (fun _ _ h => writes_of_writeByte h) fun _ h => writeByte_guarded h address value

theorem obeys_writeWord (address : UInt32) (value : UInt16) :
    (Exec.change (fun image : Image => image.writeWord address value)).Obeys law :=
  .change (fun _ _ h => writes_of_writeWord h) fun _ h => writeWord_guarded h address value

/-! ## The story behind an image -/

/-- The same story: nothing but dynamic memory differs. -/
structure SameStory (image after : Image) : Prop where
  header_eq : after.header = image.header
  size_eq : after.bytes.size = image.bytes.size
  pristine_eq : after.pristine = image.pristine
  static_eq : ∀ i, image.header.staticBase.toNat ≤ i → after.bytes[i]? = image.bytes[i]?

namespace SameStory

theorem refl (image : Image) : SameStory image image := ⟨rfl, rfl, rfl, fun _ _ => rfl⟩

theorem trans {a b c : Image} (hab : SameStory a b) (hbc : SameStory b c) : SameStory a c := by
  refine ⟨?_, ?_, ?_, ?_⟩
  · rw [hbc.header_eq, hab.header_eq]
  · rw [hbc.size_eq, hab.size_eq]
  · rw [hbc.pristine_eq, hab.pristine_eq]
  · intro i hi
    rw [hbc.static_eq i (by rwa [hab.header_eq]), hab.static_eq i hi]

theorem symm {image after : Image} (h : SameStory image after) : SameStory after image := by
  refine ⟨h.header_eq.symm, h.size_eq.symm, h.pristine_eq.symm, fun i hi => ?_⟩
  rw [h.header_eq] at hi
  exact (h.static_eq i hi).symm

theorem of_write {image after : Image} (h : Write image after) : SameStory image after := by
  refine ⟨h.header_eq, h.size_eq, h.pristine_eq, ?_⟩
  obtain ⟨address, value, hsize, hstatic, rfl⟩ := h.exists_eq
  intro i hi
  have hne : address.toNat ≠ i := by
    have := UInt32.lt_iff_toNat_lt.mp hstatic
    omega
  rw [Array.getElem?_set_ne _ hne]

theorem of_writes {image after : Image} (h : ReflTransGen Write image after) : SameStory image after := by
  induction h with
  | refl => exact .refl image
  | tail _ hwrite ih => exact ih.trans (.of_write hwrite)

theorem wellFormed {image after : Image} (h : SameStory image after) (hwf : image.WellFormed) :
    after.WellFormed := by
  obtain ⟨h1, h2, h3, h4, h5⟩ := hwf
  obtain ⟨hheader, hsize, hpristine, -⟩ := h
  exact ⟨by rwa [hsize], by rwa [hheader, hsize], by rwa [hheader, hpristine], by rwa [hheader],
    by rwa [hheader]⟩

theorem reset {image : Image} (h : image.WellFormed) : SameStory image image.reset := by
  have hpristine := h.pristine_size
  have hstatic := h.static_le
  refine ⟨rfl, ?_, rfl, ?_⟩
  · rw [Image.reset, loaded, Array.size_append, Array.size_extract]
    omega
  · intro i hi
    rw [Image.reset, loaded, Array.getElem?_append_right (by omega), Array.getElem?_extract]
    split
    · congr 1
      omega
    · rw [Array.getElem?_eq_none (by omega)]

theorem loaded_eq {image after : Image} (h : SameStory image after) (hwf : image.WellFormed) :
    after.loaded = image.loaded := by
  unfold loaded
  rw [h.pristine_eq, h.size_eq]
  congr 1
  apply Array.ext_getElem?
  intro i
  rw [Array.getElem?_extract, Array.getElem?_extract, h.size_eq,
    h.static_eq _ (by rw [hwf.pristine_size]; omega)]

theorem checksum_eq {image after : Image} (h : SameStory image after) (hwf : image.WellFormed) :
    after.checksum = image.checksum := by
  unfold checksum
  rw [h.loaded_eq hwf]

end SameStory

/-- A loaded image holds the bytes that were loaded. -/
theorem loaded_of_load {file : Array UInt8} {image : Image} (h : load file = .ok image) :
    image.loaded = image.bytes := by
  obtain ⟨-, -, -, -, hpristine⟩ := of_load h
  have hwf := load_wellFormed h
  unfold loaded
  rw [hwf.pristine_size, hpristine, Array.extract_append_extract]
  rw [show min 0 image.header.staticBase.toNat = 0 by omega, Nat.max_eq_right hwf.static_le,
    Array.extract_size]

/-- The sum of bytes, which does not wrap around. -/
def byteSum : List UInt8 → Nat
  | [] => 0
  | byte :: bytes => byte.toNat + byteSum bytes

theorem toNat_foldl_add (bytes : List UInt8) (start : UInt16) :
    (bytes.foldl (fun sum byte => sum + byte.toUInt16) start).toNat =
      (start.toNat + byteSum bytes) % 0x10000 := by
  induction bytes generalizing start with
  | nil => exact (Nat.mod_eq_of_lt start.toNat_lt).symm
  | cons byte bytes ih =>
    rw [List.foldl_cons, ih, UInt16.toNat_add, byteSum, UInt8.toNat_toUInt16]
    omega

theorem toNat_checksum (image : Image) :
    image.checksum.toNat = byteSum (image.loaded.toList.drop headerSize) % 0x10000 := by
  unfold checksum
  rw [toNat_foldl_add]
  simp

end Image

end StoryMachine
