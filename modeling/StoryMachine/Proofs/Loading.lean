import StoryMachine.Proofs.Access

/-!
# Which files are stories

The checks that a file must pass are made on fields of 32 bits. Here the format is said of the bytes of the file, in
numbers that do not wrap around.

* `Image.field` : the number in two bytes of a file; `declaredLength`, `storyLength` : how long the story in it is;
* `Image.Acceptable` : a file is a story; `passes_iff_acceptable` : the checks amount to this;
* `cut_append`, `Acceptable.story`, `Acceptable.append_zeros` : a story is made of the bytes that its length covers,
  and zeros behind them do not matter;
* `load_normalizes` : **just the stories are loaded, and each as its own bytes without the padding.**
-/

namespace StoryMachine.Image

/-! ## The format of a file -/

/-- The number in the two bytes of a file from an index on, the high one first. -/
def field (file : Array UInt8) (index : Nat) : Nat :=
  bigEndian ((file.toList.drop index).take 2)

/-- The length that a file declares. Its header holds half of it. -/
def declaredLength (file : Array UInt8) : Nat :=
  2 * field file 0x1A

/-- The length of the story in a file: the declared one, or that of the whole file if none is declared. -/
def storyLength (file : Array UInt8) : Nat :=
  if declaredLength file = 0 then file.size else declaredLength file

/-- The file has a header of version 3, all of its story, nothing but zeros behind it, and a static base between the
header and the story's end. -/
@[mk_iff]
structure Acceptable (file : Array UInt8) : Prop where
  header_le : headerSize ≤ file.size
  version_eq : file[0]? = some 3
  length_le : storyLength file ≤ file.size
  padding : ∀ byte ∈ file.toList.drop (storyLength file), byte = 0
  le_static : headerSize ≤ field file 0x0E
  static_le : field file 0x0E ≤ storyLength file

instance (file : Array UInt8) : Decidable (Acceptable file) :=
  -- only the bytes of the file are looked at, not every byte that there is
  haveI : Decidable (∀ byte ∈ file.toList.drop (storyLength file), byte = 0) := List.decidableBAll _ _
  decidable_of_iff' _ (acceptable_iff file)

/-! ## The checks of the header -/

section
variable {file : Array UInt8}

theorem toNat_wordAt {index : Nat} (h : index + 2 ≤ file.size) :
    (Header.wordAt file index).toNat = field file index := by
  have hfirst : index < file.toList.length := by simp; omega
  have hsecond : index + 1 < file.toList.length := by simp; omega
  unfold Header.wordAt field
  rw [toNat_word, List.drop_eq_getElem_cons hfirst, List.drop_eq_getElem_cons hsecond]
  simp [bigEndian, Array.getD, show index < file.size by omega, show index + 1 < file.size by omega]

variable (hheader : headerSize ≤ file.size)
include hheader

theorem toNat_parse_length : (Header.parse file).length.toNat = declaredLength file := by
  have hword := toNat_wordAt (show 0x1A + 2 ≤ file.size from Nat.le_trans (by decide) hheader)
  have hlt := (Header.wordAt file 0x1A).toNat_lt
  unfold declaredLength
  rw [← hword]
  change ((Header.wordAt file 0x1A).toUInt32 * 2).toNat = _
  rw [UInt32.toNat_mul, UInt16.toNat_toUInt32]
  change _ * 2 % 0x100000000 = _
  omega

theorem toNat_parse_staticBase : (Header.parse file).staticBase.toNat = field file 0x0E := by
  change (Header.wordAt file 0xE).toUInt32.toNat = _
  rw [UInt16.toNat_toUInt32]
  exact toNat_wordAt (Nat.le_trans (by decide) hheader)

theorem parse_version_iff : (Header.parse file).version = 3 ↔ file[0]? = some 3 := by
  have hpos : 0 < file.size := Nat.lt_of_lt_of_le (by decide) hheader
  change file.getD 0 0 = 3 ↔ _
  simp [Array.getD, hpos]

theorem toNat_loadedLength (hsize : file.size < 0x100000000) :
    (loadedLength file).toNat = storyLength file := by
  have hdeclared := toNat_parse_length hheader
  have hblank : (Header.parse file).length = 0 ↔ declaredLength file = 0 := by
    rw [← hdeclared, ← UInt32.toNat_inj]
    rfl
  unfold loadedLength storyLength
  by_cases h : declaredLength file = 0
  · rw [if_pos h, if_pos (hblank.mpr h)]
    exact UInt32.toNat_ofNat_of_lt' hsize
  · rw [if_neg h, if_neg (mt hblank.mp h), hdeclared]

end

theorem all_zero_iff (file : Array UInt8) (start : Nat) :
    file.all (· == 0) start ↔ ∀ byte ∈ file.toList.drop start, byte = 0 := by
  rw [Array.all_iff_forall]
  constructor
  · intro h byte hbyte
    obtain ⟨i, hi, rfl⟩ := List.mem_drop_iff_getElem.mp hbyte
    have hi' : start + i < file.size := by simpa [Nat.add_comm] using hi
    simpa using h (start + i) hi' ⟨by omega, hi'⟩
  · intro h i hi hbounds
    have hmem : file[i] ∈ file.toList.drop start := by
      refine List.mem_drop_iff_getElem.mpr ⟨i - start, by simp; omega, ?_⟩
      simp [Nat.add_sub_cancel' hbounds.1]
    simpa using h _ hmem

/-- The checks of the header accept just the stories. -/
theorem passes_iff_acceptable {file : Array UInt8} (hsize : file.size < 0x100000000) :
    Passes file ↔ Acceptable file := by
  have hnat : file.size.toUInt32.toNat = file.size := UInt32.toNat_ofNat_of_lt' hsize
  constructor
  · rintro ⟨hheader, hversion, hlength, hpadding, hle, hstatic⟩
    rw [UInt32.le_iff_toNat_le] at hlength hle hstatic
    rw [toNat_parse_staticBase hheader] at hle hstatic
    rw [toNat_loadedLength hheader hsize] at hlength hstatic hpadding
    rw [hnat] at hlength
    exact ⟨hheader, (parse_version_iff hheader).mp hversion, hlength, (all_zero_iff _ _).mp hpadding, hle, hstatic⟩
  · rintro ⟨hheader, hversion, hlength, hpadding, hle, hstatic⟩
    rw [← toNat_parse_staticBase hheader] at hle hstatic
    rw [← toNat_loadedLength hheader hsize] at hlength hstatic hpadding
    refine ⟨hheader, (parse_version_iff hheader).mpr hversion, ?_, (all_zero_iff _ _).mpr hpadding, ?_, ?_⟩
    · rwa [UInt32.le_iff_toNat_le, hnat]
    · exact UInt32.le_iff_toNat_le.mpr hle
    · exact UInt32.le_iff_toNat_le.mpr hstatic

/-! ## The story and its padding -/

section
variable {front : Array UInt8} (rest : Array UInt8)

theorem field_append {index : Nat} (h : index + 2 ≤ front.size) : field (front ++ rest) index = field front index := by
  unfold field
  rw [Array.toList_append, List.drop_append_of_le_length (by simp; omega),
    List.take_append_of_le_length (by simp; omega)]

variable (hheader : headerSize ≤ front.size)
include hheader

theorem declaredLength_append : declaredLength (front ++ rest) = declaredLength front := by
  unfold declaredLength
  rw [field_append rest (Nat.le_trans (by decide) hheader)]

theorem version_append : (front ++ rest)[0]? = front[0]? :=
  Array.getElem?_append_left (Nat.lt_of_lt_of_le (by decide) hheader)

theorem static_append : field (front ++ rest) 0x0E = field front 0x0E :=
  field_append rest (Nat.le_trans (by decide) hheader)

/-- What stands behind the bytes that are loaded does not matter. -/
theorem cut_append {length : UInt32} (hlength : length.toNat ≤ front.size) :
    cut (front ++ rest) length = cut front length := by
  have hparse : Header.parse (front ++ rest) = Header.parse front := by
    have h := @parse_append front.toList rest.toList (by simpa using hheader)
    rwa [← List.append_toArray, Array.toArray_toList, Array.toArray_toList] at h
  have hbytes : (front ++ rest).extract 0 length.toNat = front.extract 0 length.toNat := by
    rw [Array.extract_append, Nat.sub_eq_zero_of_le hlength]
    simp
  unfold cut
  rw [hparse, hbytes]

theorem storyLength_append (hdeclared : declaredLength front ≠ 0) :
    storyLength (front ++ rest) = storyLength front := by
  unfold storyLength
  rw [declaredLength_append rest hheader, if_neg hdeclared, if_neg hdeclared]

end

section
variable {file : Array UInt8}

/-- A file is its story and the bytes behind it. -/
theorem story_append (file : Array UInt8) (length : Nat) :
    file.extract 0 length ++ file.extract length = file := by
  rw [Array.extract_append_extract, Nat.zero_min]
  exact Array.extract_eq_self_of_le (Nat.le_max_right _ _)

theorem Acceptable.size_story (h : Acceptable file) :
    (file.extract 0 (storyLength file)).size = storyLength file := by
  have hlength := h.length_le
  rw [Array.size_extract]
  omega

/-- A story without its padding is a story of the same length. -/
theorem Acceptable.story (h : Acceptable file) :
    Acceptable (file.extract 0 (storyLength file)) ∧
      storyLength (file.extract 0 (storyLength file)) = storyLength file := by
  have hsize := h.size_story
  have hheader : headerSize ≤ (file.extract 0 (storyLength file)).size := by
    rw [hsize]
    exact Nat.le_trans h.le_static h.static_le
  have hwhole := story_append file (storyLength file)
  generalize file.extract 0 (storyLength file) = front at hsize hheader hwhole ⊢
  generalize file.extract (storyLength file) = rest at hwhole
  subst hwhole
  have hlength : storyLength front = storyLength (front ++ rest) := by
    by_cases hblank : declaredLength front = 0
    · rw [storyLength, if_pos hblank, hsize]
    · rw [storyLength_append rest hheader hblank]
  refine ⟨⟨hheader, ?_, ?_, ?_, ?_, ?_⟩, hlength⟩
  · rw [← version_append rest hheader]
    exact h.version_eq
  · omega
  · rw [hlength, ← hsize, List.drop_of_length_le (by simp)]
    exact List.forall_mem_nil _
  · rw [← static_append rest hheader]
    exact h.le_static
  · rw [← static_append rest hheader, hlength]
    exact h.static_le

/-- Zeros behind a file that declares a length leave it a story. -/
theorem Acceptable.append_zeros (h : Acceptable file) (hdeclared : declaredLength file ≠ 0) (count : Nat) :
    Acceptable (file ++ Array.replicate count 0) := by
  have hheader := h.header_le
  have hlength := storyLength_append (Array.replicate count 0) hheader hdeclared
  have hle := h.length_le
  refine ⟨?_, ?_, ?_, ?_, ?_, ?_⟩
  · rw [Array.size_append]
    omega
  · rw [version_append _ hheader]
    exact h.version_eq
  · rw [hlength, Array.size_append]
    omega
  · rw [hlength, Array.toList_append, List.drop_append_of_le_length (by simpa using hle)]
    intro byte hbyte
    rcases List.mem_append.mp hbyte with hbyte | hbyte
    · exact h.padding byte hbyte
    · exact (List.mem_replicate.mp (by simpa using hbyte)).2
  · rw [static_append _ hheader]
    exact h.le_static
  · rw [static_append _ hheader, hlength]
    exact h.static_le

end

/-! ## What is loaded -/

section
variable {file : Array UInt8}

theorem Acceptable.load_eq (h : Acceptable file) (hsize : file.size < 0x100000000) :
    load file = .ok (cut file (loadedLength file)) :=
  ((passes_iff_acceptable hsize).mpr h).load_eq

/-- Two stories of the same length, one of which begins with the other, have the same image. -/
theorem load_append_eq {front rest : Array UInt8} (hsize : (front ++ rest).size < 0x100000000)
    (hfront : Acceptable front) (hwhole : Acceptable (front ++ rest))
    (hlength : storyLength (front ++ rest) = storyLength front) : load (front ++ rest) = load front := by
  have hsize' : front.size < 0x100000000 := by
    rw [Array.size_append] at hsize
    omega
  have hsame : loadedLength (front ++ rest) = loadedLength front := by
    apply UInt32.toNat_inj.mp
    rw [toNat_loadedLength hwhole.header_le hsize, toNat_loadedLength hfront.header_le hsize', hlength]
  have hle : (loadedLength front).toNat ≤ front.size := by
    rw [toNat_loadedLength hfront.header_le hsize']
    exact hfront.length_le
  rw [hwhole.load_eq hsize, hfront.load_eq hsize', hsame, cut_append rest hfront.header_le hle]

theorem Acceptable.load_story (h : Acceptable file) (hsize : file.size < 0x100000000) :
    load (file.extract 0 (storyLength file)) = load file := by
  obtain ⟨hstory, hlength⟩ := h.story
  have hsame := @load_append_eq (file.extract 0 (storyLength file)) (file.extract (storyLength file))
  rw [story_append] at hsame
  exact (hsame hsize hstory h hlength.symm).symm

theorem Acceptable.load_append_zeros (h : Acceptable file) (hdeclared : declaredLength file ≠ 0) {count : Nat}
    (hcount : file.size + count < 0x100000000) : load (file ++ Array.replicate count 0) = load file :=
  load_append_eq (by simpa using hcount) h (h.append_zeros hdeclared count)
    (storyLength_append _ h.header_le hdeclared)

end

/-- **Just the stories are loaded, and each as its own bytes.** A file is loaded if and only if it is a story; every
other one is refused for its header. The image is the story without its padding, and the header has its length. Loading
that image's bytes gives the same image again, and so does a file with more zeros behind it, if it declares its
length. -/
theorem load_normalizes {file : Array UInt8} (hsize : file.size < 0x100000000) :
    ((∃ image, load file = .ok image) ↔ Acceptable file) ∧
    (¬ Acceptable file → ∃ error, load file = .error error ∧ error.kind? = some .malformedHeader) ∧
    ∀ image, load file = .ok image →
      image.bytes.toList = file.toList.take (storyLength file) ∧
      image.header.length.toNat = storyLength file ∧
      load image.bytes = .ok image ∧
      (declaredLength file ≠ 0 → ∀ count, file.size + count < 0x100000000 →
        load (file ++ Array.replicate count 0) = .ok image) := by
  have haccepted := passes_iff_acceptable hsize
  refine ⟨⟨?_, ?_⟩, ?_, ?_⟩
  · rintro ⟨image, hload⟩
    exact haccepted.mp (passes_of_load hload).1
  · intro h
    exact ⟨_, h.load_eq hsize⟩
  · intro hrefused
    rcases load_cases file with ⟨hpasses, -⟩ | ⟨-, herror⟩
    · exact absurd (haccepted.mp hpasses) hrefused
    · exact herror
  · intro image hload
    obtain ⟨hpasses, rfl⟩ := passes_of_load hload
    have h := haccepted.mp hpasses
    have hlength := toNat_loadedLength h.header_le hsize
    have hbytes : (cut file (loadedLength file)).bytes = file.extract 0 (storyLength file) := by
      rw [cut, hlength]
    refine ⟨?_, hlength, ?_, ?_⟩
    · rw [hbytes]
      simp
    · rw [hbytes, h.load_story hsize, hload]
    · intro hdeclared count hcount
      rw [h.load_append_zeros hdeclared hcount, hload]

/-- A story of 66 bytes that declares its length, and three zeros behind it. -/
def paddedStory : Array UInt8 :=
  #[0x03] ++ Array.replicate 14 0 ++ #[0x40] ++ Array.replicate 11 0 ++ #[0x21] ++ Array.replicate 36 0 ++
    #[0xBE, 0xEF, 0x00, 0x00, 0x00]

/-- The story is loaded without its zeros, however many more there are, and refused with another byte behind them. -/
theorem load_normalizes_sample :
    (∃ image, load paddedStory = .ok image ∧ image.bytes.toList = paddedStory.toList.take 66 ∧
      image.header.length.toNat = 66 ∧ load image.bytes = .ok image ∧
      load (paddedStory ++ Array.replicate 1000 0) = .ok image) ∧
    ∃ error, load (paddedStory.push 1) = .error error ∧ error.kind? = some .malformedHeader := by
  obtain ⟨haccepted, -, hloaded⟩ := @load_normalizes paddedStory (by decide)
  obtain ⟨image, hload⟩ := haccepted.mpr (by decide)
  obtain ⟨hbytes, hlength, hagain, hpadded⟩ := hloaded image hload
  obtain ⟨-, hrefused, -⟩ := @load_normalizes (paddedStory.push 1) (by decide)
  exact ⟨⟨image, hload, hbytes, hlength, hagain, hpadded (by decide) 1000 (by decide)⟩, hrefused (by decide)⟩

end StoryMachine.Image
