import StoryMachine.Proofs.Placement

/-!
# Words looked up

* `Heading` : what stands in front of a dictionary's entries: separators, the length of an entry, and the signed
  number of entries; `Heading.place` : where an entry begins. Reading a dictionary gives the heading that
  stands there, and nothing else (`read_of_holds`, `exists_of_read`);
* `Lexicon` : a heading with the keys of its entries; `Lexicon.Stands image` : the lexicon stands in an image,
  and its entries begin below 2^16;
* `bisect_cases` : bisection of ascending keys ends at an entry with the key, or there is none;
  `scan_eq` : looking at one entry after the other ends at the first;
* `find_lexicon` : **a lookup finds exactly the words that are there.**
-/

namespace StoryMachine

/-! ## Headings -/

section
variable {image : Image} {address : UInt32}

/-- Reading bytes one after the other gives what the image holds. -/
theorem Image.Holds.readBytes {bytes rest : List UInt8} (hsize : image.bytes.size < 0x100000000)
    (h : image.Holds address (bytes ++ rest)) :
    Dictionary.readBytes image address bytes.length = .ok bytes := by
  induction bytes generalizing address with
  | nil => rfl
  | cons byte bytes ih =>
    have hnext : image.Holds (address + 1) (bytes ++ rest) :=
      @right image address [byte] _ hsize h 1 rfl
    rw [List.length_cons, Dictionary.readBytes, h.readByte hsize, ih hnext]
    rfl

theorem Image.Holds.of_readBytes {count : Nat} {bytes : List UInt8}
    (h : Dictionary.readBytes image address count = .ok bytes) :
    bytes.length = count ∧ image.Holds address bytes := by
  induction count generalizing address bytes with
  | zero =>
    cases h
    exact ⟨rfl, List.nil_prefix⟩
  | succ count ih =>
    obtain ⟨byte, hbyte, h⟩ := exists_of_bind_eq_ok h
    obtain ⟨rest, hrest, h⟩ := exists_of_bind_eq_ok h
    cases h
    obtain ⟨hlength, hholds⟩ := ih hrest
    exact ⟨congrArg (· + 1) hlength,
      (Holds.of_readByte hbyte).append hholds (toNat_behind_readByte hbyte)⟩

end

/-- What stands in front of a dictionary's entries. A negative number of entries says that they are not
sorted. -/
structure Heading where
  separators : List UInt8
  entryLength : UInt8
  count : UInt16
  separators_lt : separators.length < 256

namespace Heading

def bytes (heading : Heading) : List UInt8 :=
  .ofNat heading.separators.length ::
    (heading.separators ++ heading.entryLength :: wordBytes heading.count)

/-- The number of entries, with its sign. -/
def signedCount (heading : Heading) : Int :=
  heading.count.toInt16.toInt

/-- Where an entry of the dictionary at an address begins. -/
def place (heading : Heading) (start : UInt32) (index : Nat) : Nat :=
  start.toNat + heading.bytes.length + index * heading.entryLength.toNat

/-- The dictionary as it is read from an address. -/
def toDictionary (heading : Heading) (start : UInt32) : Dictionary where
  separators := heading.separators
  entryLength := heading.entryLength.toUInt32
  count := heading.signedCount.natAbs
  sorted := 0 ≤ heading.signedCount
  entries := start + 1 + (UInt8.ofNat heading.separators.length).toUInt32 + 3

theorem length_bytes (heading : Heading) : heading.bytes.length = heading.separators.length + 4 := by
  simp [bytes, wordBytes]

theorem toNat_ofNat_length (heading : Heading) :
    (UInt8.ofNat heading.separators.length).toNat = heading.separators.length := by
  rw [UInt8.toNat_ofNat']
  exact Nat.mod_eq_of_lt heading.separators_lt

theorem toNat_width (heading : Heading) :
    (UInt8.ofNat heading.separators.length).toUInt32.toNat = heading.separators.length := by
  rw [UInt8.toNat_toUInt32, heading.toNat_ofNat_length]

/-- The entries begin behind the heading. -/
theorem toNat_entries (heading : Heading) {start : UInt32} (hstart : start.toNat < 0x10000) :
    (heading.toDictionary start).entries.toNat = start.toNat + heading.bytes.length := by
  have hseparators := heading.separators_lt
  have hwidth := heading.toNat_width
  have hone : (1 : UInt32).toNat = 1 := rfl
  have hthree : (3 : UInt32).toNat = 3 := rfl
  have hfirst := @toNat_add_of_lt start 1 (by omega)
  have hsecond := @toNat_add_of_lt (start + 1) (UInt8.ofNat heading.separators.length).toUInt32 (by omega)
  rw [toDictionary, toNat_add_of_lt (by omega), hsecond, hfirst, hwidth, length_bytes]
  omega

variable {image : Image} (himage : image.WellFormed)
include himage

/-- **Reading the dictionary gives the heading that stands there.** -/
theorem read_of_holds (heading : Heading) (h : image.Holds image.header.dictionary heading.bytes) :
    Dictionary.read image = .ok (heading.toDictionary image.header.dictionary) := by
  have hsize := himage.size_lt
  have hrest : image.Holds (image.header.dictionary + 1)
      (heading.separators ++ heading.entryLength :: wordBytes heading.count) :=
    @Image.Holds.right image _ [_] _ hsize h 1 rfl
  have hlength := hrest.right hsize _ heading.toNat_width
  have hcount : image.Holds
      (image.header.dictionary + 1 + (UInt8.ofNat heading.separators.length).toUInt32 + 1)
      (wordBytes heading.count ++ []) := by
    rw [List.append_nil]
    exact @Image.Holds.right image _ [_] _ hsize hlength 1 rfl
  unfold Dictionary.read
  dsimp only
  rw [h.readByte hsize]
  change (Dictionary.readBytes image (image.header.dictionary + 1)
    (UInt8.ofNat heading.separators.length).toNat >>= _) = _
  rw [heading.toNat_ofNat_length, hrest.readBytes hsize]
  change (image.readByte _ >>= _) = _
  rw [hlength.readByte hsize]
  change (image.readWord _ >>= _) = _
  rw [hcount.readWord hsize]
  rfl

/-- A dictionary that is read has a heading. -/
theorem exists_of_read {dictionary : Dictionary} (h : Dictionary.read image = .ok dictionary) :
    ∃ heading : Heading, image.Holds image.header.dictionary heading.bytes ∧
      dictionary = heading.toDictionary image.header.dictionary := by
  obtain ⟨separatorCount, hfirst, h⟩ := exists_of_bind_eq_ok h
  obtain ⟨separators, hseparators, h⟩ := exists_of_bind_eq_ok h
  obtain ⟨entryLength, hlength, h⟩ := exists_of_bind_eq_ok h
  obtain ⟨count, hcount, h⟩ := exists_of_bind_eq_ok h
  cases h
  obtain ⟨hcounted, hholds⟩ := Image.Holds.of_readBytes hseparators
  have hnumber : UInt8.ofNat separators.length = separatorCount := by
    rw [hcounted, UInt8.ofNat_toNat]
  have hstart := himage.dictionary_lt
  have hlt := separatorCount.toNat_lt
  have hone := Image.toNat_behind_readByte hfirst
  have hbase : (image.header.dictionary + 1 + separatorCount.toUInt32).toNat =
      (image.header.dictionary + 1).toNat + separators.length := by
    rw [hcounted, ← UInt8.toNat_toUInt32]
    exact toNat_add_of_lt (by rw [UInt8.toNat_toUInt32]; omega)
  have htail : image.Holds (image.header.dictionary + 1 + separatorCount.toUInt32)
      (entryLength :: wordBytes count) :=
    (Image.Holds.of_readByte hlength).append (.of_readWord hcount) (Image.toNat_behind_readByte hlength)
  refine ⟨⟨separators, entryLength, count, by omega⟩, ?_, ?_⟩
  · rw [bytes, hnumber]
    exact (Image.Holds.of_readByte hfirst).append (hholds.append htail hbase) hone
  · rw [toDictionary, hnumber]
    rfl

end Heading

/-! ## Lexicons -/

/-- What a dictionary holds: a heading, and as many keys as it says. -/
structure Lexicon extends Heading where
  keys : List UInt32
  length_keys : keys.length = toHeading.signedCount.natAbs

namespace Lexicon

/-- Where the first entry with a key begins; 0 if none has it. -/
def firstPlace (lexicon : Lexicon) (start key : UInt32) : Nat :=
  match lexicon.keys.idxOf? key with
  | some index => lexicon.place start index
  | none => 0

/-- The lexicon stands in the image, where the header says. -/
structure Stands (lexicon : Lexicon) (image : Image) : Prop where
  heading : image.Holds image.header.dictionary lexicon.bytes
  keys : ∀ index key, lexicon.keys[index]? = some key →
    image.Holds (.ofNat (lexicon.place image.header.dictionary index)) (longBytes key)
  place_lt : ∀ index < lexicon.keys.length, lexicon.place image.header.dictionary index < 0x10000

section
variable {lexicon : Lexicon} {image : Image} (himage : image.WellFormed)
include himage

theorem Stands.read (h : lexicon.Stands image) :
    Dictionary.read image = .ok (lexicon.toDictionary image.header.dictionary) :=
  lexicon.read_of_holds himage h.heading

theorem Stands.toNat_entryAddress (h : lexicon.Stands image) {index : Nat}
    (hindex : index < lexicon.keys.length) :
    ((lexicon.toDictionary image.header.dictionary).entryAddress index).toNat =
      lexicon.place image.header.dictionary index := by
  have hreach := Dictionary.inReach_of_read himage (h.read himage)
  have hcount : index < (lexicon.toDictionary image.header.dictionary).count := by
    rwa [lexicon.length_keys] at hindex
  rw [hreach.toNat_entryAddress hcount, lexicon.toNat_entries himage.dictionary_lt, Heading.place]
  change _ + index * lexicon.entryLength.toUInt32.toNat = _
  rw [UInt8.toNat_toUInt32]

theorem Stands.entryAddress_eq (h : lexicon.Stands image) {index : Nat}
    (hindex : index < lexicon.keys.length) :
    (lexicon.toDictionary image.header.dictionary).entryAddress index =
      .ofNat (lexicon.place image.header.dictionary index) := by
  rw [← h.toNat_entryAddress himage hindex, UInt32.ofNat_toNat]

theorem Stands.readLong (h : lexicon.Stands image) {index : Nat} {key : UInt32}
    (hkey : lexicon.keys[index]? = some key) :
    image.readLong ((lexicon.toDictionary image.header.dictionary).entryAddress index) = .ok key := by
  have hindex : index < lexicon.keys.length := (List.getElem?_eq_some_iff.mp hkey).1
  have hholds : image.Holds (.ofNat (lexicon.place image.header.dictionary index))
      (longBytes key ++ []) := by
    rw [List.append_nil]
    exact h.keys index key hkey
  rw [h.entryAddress_eq himage hindex, hholds.readLong himage.size_lt]

/-- The address of an entry is not cut off by the width of a word. -/
theorem Stands.toNat_toUInt16 (h : lexicon.Stands image) {index : Nat}
    (hindex : index < lexicon.keys.length) :
    ((lexicon.toDictionary image.header.dictionary).entryAddress index).toUInt16.toNat =
      lexicon.place image.header.dictionary index := by
  rw [UInt32.toNat_toUInt16, h.toNat_entryAddress himage hindex]
  exact Nat.mod_eq_of_lt (h.place_lt index hindex)

end

theorem place_pos (lexicon : Lexicon) (start : UInt32) (index : Nat) : 0 < lexicon.place start index := by
  rw [Heading.place, Heading.length_bytes]
  omega

end Lexicon

/-! ## Searching -/

namespace Dictionary

section
variable {image : Image} {dictionary : Dictionary} {keys : List UInt32}

theorem bisect_of_read {key found : UInt32} {low high : Nat} (h : low < high)
    (hread : image.readLong (dictionary.entryAddress (middle low high)) = .ok found) :
    bisect image dictionary key low high =
      if key < found then bisect image dictionary key low (middle low high)
      else if key > found then bisect image dictionary key (middle low high + 1) high
      else .ok (dictionary.entryAddress (middle low high)).toUInt16 := by
  rw [bisect, if_pos h]
  dsimp only
  rw [hread]
  rfl

/-- **Bisection of ascending keys** ends at an entry with the key, or there is none between its bounds. -/
theorem bisect_cases
    (hkeys : ∀ index key, keys[index]? = some key →
      image.readLong (dictionary.entryAddress index) = .ok key)
    (hsorted : keys.Pairwise (· ≤ ·)) (key : UInt32) (low high : Nat) (hhigh : high ≤ keys.length) :
    (∃ index < high, keys[index]? = some key ∧
      bisect image dictionary key low high = .ok (dictionary.entryAddress index).toUInt16) ∨
    (∀ index, low ≤ index → index < high → keys[index]? ≠ some key) ∧
      bisect image dictionary key low high = .ok 0 := by
  have hle : ∀ {i j : Nat} (hi : i < keys.length) (hj : j < keys.length), i ≤ j → keys[i] ≤ keys[j] := by
    intro i j hi hj hij
    rcases Nat.lt_or_eq_of_le hij with hlt | rfl
    · exact List.pairwise_iff_getElem.mp hsorted i j hi hj hlt
    · exact UInt32.le_refl _
  induction low, high using bisect.induct dictionary with
  | case2 low high hge =>
    refine .inr ⟨fun index hlow hindex => by omega, ?_⟩
    rw [bisect, if_neg hge]
  | case1 low high hlt ihlow ihhigh =>
    have hmiddle : low ≤ middle low high ∧ middle low high < high := by
      unfold middle
      omega
    have hinside : middle low high < keys.length := by omega
    rw [bisect_of_read hlt (hkeys _ _ (List.getElem?_eq_getElem hinside))]
    by_cases hbelow : key < keys[middle low high]
    · -- the keys from the middle on are too large
      rw [if_pos hbelow]
      rcases ihlow (by omega) with ⟨index, hindex, hfound, hbisect⟩ | ⟨hnone, hbisect⟩
      · exact .inl ⟨index, by omega, hfound, hbisect⟩
      · refine .inr ⟨fun index hlow hindex hfound => ?_, hbisect⟩
        obtain ⟨hbound, rfl⟩ := List.getElem?_eq_some_iff.mp hfound
        by_cases hleft : index < middle low high
        · exact hnone index hlow hleft hfound
        · exact UInt32.not_le.mpr hbelow (hle hinside hbound (by omega))
    · rw [if_neg hbelow]
      by_cases habove : key > keys[middle low high]
      · -- the keys up to the middle are too small
        rw [if_pos habove]
        rcases ihhigh hhigh with hfound | ⟨hnone, hbisect⟩
        · exact .inl hfound
        · refine .inr ⟨fun index hlow hindex hfound => ?_, hbisect⟩
          obtain ⟨hbound, rfl⟩ := List.getElem?_eq_some_iff.mp hfound
          by_cases hright : middle low high < index
          · exact hnone index hright hindex hfound
          · exact UInt32.not_le.mpr habove (hle hbound hinside (by omega))
      · rw [if_neg habove]
        have hequal : keys[middle low high] = key :=
          UInt32.le_antisymm (UInt32.not_lt.mp hbelow) (UInt32.not_lt.mp habove)
        exact .inl ⟨middle low high, hmiddle.2, by rw [List.getElem?_eq_getElem hinside, hequal], rfl⟩

/-- A key that is there once is found first where it is. -/
theorem idxOf?_of_ascending (hstrict : keys.Pairwise (· < ·)) {index : Nat} {key : UInt32}
    (h : keys[index]? = some key) : keys.idxOf? key = some index := by
  obtain ⟨hindex, rfl⟩ := List.getElem?_eq_some_iff.mp h
  refine List.idxOf?_eq_some_iff.mpr ⟨hindex, rfl, fun j hj heq => ?_⟩
  have hlt := List.pairwise_iff_getElem.mp hstrict j index (Nat.lt_trans hj hindex) hindex hj
  rw [heq] at hlt
  exact UInt32.lt_irrefl _ hlt

/-- **Looking at one entry after the other** ends at the first with the key. -/
theorem scan_eq (key : UInt32) (index : Nat)
    (hkeys : ∀ i found, keys[i]? = some found →
      image.readLong (dictionary.entryAddress (index + i)) = .ok found) :
    scan image dictionary key index keys.length =
      .ok (match keys.idxOf? key with
        | some i => (dictionary.entryAddress (index + i)).toUInt16
        | none => 0) := by
  induction keys generalizing index with
  | nil => rfl
  | cons first rest ih =>
    have hrest := ih (index + 1) fun i found hfound => by
      have h := hkeys (i + 1) found hfound
      rwa [← Nat.add_assoc, Nat.add_right_comm] at h
    have hread : image.readLong (dictionary.entryAddress index) = .ok first := hkeys 0 first rfl
    rw [List.length_cons, scan, hread]
    change (if first = key then _ else _) = _
    by_cases hfirst : first = key
    · rw [if_pos hfirst, List.idxOf?_cons, if_pos (by simp [hfirst])]
      rfl
    · rw [if_neg hfirst, hrest, List.idxOf?_cons, if_neg (by simp [hfirst])]
      cases rest.idxOf? key with
      | none => rfl
      | some i =>
        dsimp only [Option.map_some]
        rw [Nat.add_assoc, Nat.add_comm 1 i]

end

section
variable {lexicon : Lexicon} {image : Image} (himage : image.WellFormed) (h : lexicon.Stands image)
  (text : List UInt8)
include himage h

theorem find_of_sorted (hcount : 0 ≤ lexicon.signedCount) :
    find image text = bisect image (lexicon.toDictionary image.header.dictionary) (Text.key text) 0
      lexicon.keys.length := by
  unfold find
  rw [h.read himage, ok_bind, Text.encodeKey_eq, lexicon.length_keys]
  exact if_pos (decide_eq_true hcount)

theorem find_of_unsorted (hcount : lexicon.signedCount < 0) :
    find image text = scan image (lexicon.toDictionary image.header.dictionary) (Text.key text) 0
      lexicon.keys.length := by
  unfold find
  rw [h.read himage, ok_bind, Text.encodeKey_eq, lexicon.length_keys]
  exact if_neg (by simp [Heading.toDictionary, hcount])

/-- Looking at one entry after the other gives the place of the first with the key. -/
theorem scan_lexicon :
    ∃ address, scan image (lexicon.toDictionary image.header.dictionary) (Text.key text) 0
        lexicon.keys.length = .ok address ∧
      address.toNat = lexicon.firstPlace image.header.dictionary (Text.key text) := by
  refine ⟨_, scan_eq _ 0 fun i found hfound => ?_, ?_⟩
  · rw [Nat.zero_add]
    exact h.readLong himage hfound
  · unfold Lexicon.firstPlace
    cases hfirst : lexicon.keys.idxOf? (Text.key text) with
    | none => rfl
    | some index =>
      obtain ⟨hindex, -⟩ := List.idxOf?_eq_some_iff.mp hfirst
      dsimp only
      rw [Nat.zero_add, h.toNat_toUInt16 himage hindex]

end

/-- **A lookup finds exactly the words that are there.** Take any lexicon that stands in the image of a loaded
story, with any separators and any length of its entries, and any word; it has a key. If the keys of the entries
are sorted, the lookup gives an address, which is not 0 just if there is an entry with the key of the word, and
then is the address of such an entry; if no key is there twice, of the first that looking at one entry after the
other finds. If the lexicon says that it is not sorted, the lookup gives the first in any case. -/
theorem find_lexicon {file : Array UInt8} {loaded image : Image} (hload : Image.load file = .ok loaded)
    (hsame : loaded.SameStory image) {lexicon : Lexicon} (h : lexicon.Stands image)
    (text : List UInt8) :
    Text.encodeKey text = .ok (Text.key text) ∧
    (0 ≤ lexicon.signedCount → lexicon.keys.Pairwise (· ≤ ·) →
      ∃ address, find image text = .ok address ∧
        (address ≠ 0 ↔ Text.key text ∈ lexicon.keys) ∧
        (address ≠ 0 → ∃ index, lexicon.keys[index]? = some (Text.key text) ∧
          address.toNat = lexicon.place image.header.dictionary index) ∧
        (lexicon.keys.Pairwise (· < ·) →
          address.toNat = lexicon.firstPlace image.header.dictionary (Text.key text))) ∧
    (lexicon.signedCount < 0 →
      ∃ address, find image text = .ok address ∧
        address.toNat = lexicon.firstPlace image.header.dictionary (Text.key text)) := by
  have himage := hsame.wellFormed (Image.load_wellFormed hload)
  refine ⟨Text.encodeKey_eq text, ?_, ?_⟩
  · intro hcount hsorted
    rw [find_of_sorted himage h text hcount]
    rcases bisect_cases (fun _ _ => h.readLong himage) hsorted (Text.key text) 0 lexicon.keys.length
      (Nat.le_refl _) with ⟨index, hindex, hfound, hbisect⟩ | ⟨hnone, hbisect⟩
    · have hplace := h.toNat_toUInt16 himage hindex
      have hne : ((lexicon.toDictionary image.header.dictionary).entryAddress index).toUInt16 ≠ 0 := by
        intro hzero
        rw [hzero] at hplace
        exact Nat.ne_of_lt (lexicon.place_pos _ index) hplace
      refine ⟨_, hbisect, iff_of_true hne (List.mem_of_getElem? hfound), fun _ => ⟨index, hfound, hplace⟩, ?_⟩
      intro hstrict
      rw [Lexicon.firstPlace, idxOf?_of_ascending hstrict hfound, hplace]
    · have hmem : Text.key text ∉ lexicon.keys := by
        intro hmem
        obtain ⟨index, hindex, heq⟩ := List.mem_iff_getElem.mp hmem
        exact hnone index (Nat.zero_le _) hindex (by rw [List.getElem?_eq_getElem hindex, heq])
      refine ⟨0, hbisect, iff_of_false (fun h => h rfl) hmem, fun h => absurd rfl h, fun _ => ?_⟩
      rw [Lexicon.firstPlace, List.idxOf?_eq_none_iff.mpr hmem]
      rfl
  · intro hcount
    rw [find_of_unsorted himage h text hcount]
    exact scan_lexicon himage h text

/-- A story with a text buffer at 0x40, a parse buffer at 0x47, and the words "ab" and "go" in a dictionary at
0x4D. All of it is dynamic memory. -/
def wordStory : Array UInt8 :=
  #[0x03, 0x00, 0x00, 0x00, 0x00, 0x00, 0x00, 0x00, 0x00, 0x4D, 0x00, 0x00, 0x00, 0x00, 0x00, 0x5C,
    0x00, 0x00, 0x00, 0x00, 0x00, 0x00, 0x00, 0x00, 0x00, 0x00, 0x00, 0x00, 0x00, 0x00, 0x00, 0x00,
    0x00, 0x00, 0x00, 0x00, 0x00, 0x00, 0x00, 0x00, 0x00, 0x00, 0x00, 0x00, 0x00, 0x00, 0x00, 0x00,
    0x00, 0x00, 0x00, 0x00, 0x00, 0x00, 0x00, 0x00, 0x00, 0x00, 0x00, 0x00, 0x00, 0x00, 0x00, 0x00,
    0x06, 0x00, 0x00, 0x00, 0x00, 0x00, 0x00, 0x01, 0x00, 0x00, 0x00, 0x00, 0x00, 0x01, 0x2C, 0x05,
    0x00, 0x02, 0x18, 0xE5, 0x94, 0xA5, 0x00, 0x32, 0x85, 0x94, 0xA5, 0x00]

def wordImage : Image :=
  .whole wordStory

theorem load_wordStory : Image.load wordStory = .ok wordImage :=
  Image.load_eq_whole (by decide) (by decide) (by decide) (by decide) (by decide) (by decide)

/-- The words, with a comma as the only separator and a byte behind each key. -/
def wordLexicon : Lexicon :=
  ⟨⟨[0x2C], 5, 2, by decide⟩, [0x18E594A5, 0x328594A5], by decide⟩

/-- The image with the words in the other order, and a heading that says so. -/
def unsortedImage : Image :=
  { wordImage with bytes := wordStory.extract 0 0x50 ++
      #[0xFF, 0xFE, 0x32, 0x85, 0x94, 0xA5, 0x00, 0x18, 0xE5, 0x94, 0xA5, 0x00] }

theorem sameStory_unsortedImage : wordImage.SameStory unsortedImage := by
  have hsize : unsortedImage.bytes.size = wordImage.bytes.size := by decide +kernel
  have hbase : wordImage.header.staticBase.toNat = wordImage.bytes.size := by decide +kernel
  refine ⟨rfl, hsize, by rw [unsortedImage], fun i hi => ?_⟩
  rw [hbase] at hi
  rw [Array.getElem?_eq_none hi, Array.getElem?_eq_none (by rwa [hsize])]

def unsortedLexicon : Lexicon :=
  ⟨⟨[0x2C], 5, 0xFFFE, by decide⟩, [0x328594A5, 0x18E594A5], by decide⟩

theorem stands_wordLexicon : wordLexicon.Stands wordImage where
  heading := by decide +kernel
  keys := by rintro (_ | _ | index) key hkey <;> cases hkey <;> decide +kernel
  place_lt := by decide +kernel

theorem stands_unsortedLexicon : unsortedLexicon.Stands unsortedImage where
  heading := by decide +kernel
  keys := by rintro (_ | _ | index) key hkey <;> cases hkey <;> decide +kernel
  place_lt := by decide +kernel

theorem find_lexicon_sample :
    (∃ address, find wordImage [0x67, 0x6F] = .ok address ∧ address.toNat = 0x57) ∧
    (∃ address, find wordImage [0x78] = .ok address ∧ address = 0) ∧
    ∃ address, find unsortedImage [0x61, 0x62] = .ok address ∧ address.toNat = 0x57 := by
  have hsorted := fun text =>
    (find_lexicon load_wordStory (.refl _) stands_wordLexicon text).2.1 (by decide) (by decide)
  obtain ⟨found, hfound, -, -, hfirst⟩ := hsorted [0x67, 0x6F]
  obtain ⟨missing, hmissing, hiff, -⟩ := hsorted [0x78]
  obtain ⟨other, hother, hplace⟩ :=
    (find_lexicon load_wordStory sameStory_unsortedImage stands_unsortedLexicon [0x61, 0x62]).2.2 (by decide)
  refine ⟨⟨found, hfound, (hfirst (by decide)).trans (by decide +kernel)⟩, ⟨missing, hmissing, ?_⟩,
    ⟨other, hother, hplace.trans (by decide +kernel)⟩⟩
  have habsent : Text.key [0x78] ∉ wordLexicon.keys := by decide +kernel
  exact not_not.mp fun hne => habsent (hiff.mp hne)

end Dictionary

end StoryMachine
