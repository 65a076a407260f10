import StoryMachine.Proofs.Placement

/-!
# Properties of objects

* `Property`, `PropertyTable` : what a property table says, with its numbers in descending order; `bytes` : how it
  is written down; `PropertyTable.Stands image object start` : the entry of an object gives the address of such a
  table, and the table stands there;
* `findFrom_of_split`, `findFrom_of_not_mem` : from the first size byte on, a lookup finds the data of a property of
  the list, and nothing for any other number;
* `property_lookup` : **a lookup finds exactly the properties that are there**, with their data and their values, and
  the default values of all others;
* `nextProperties` : the numbers that calls for the next property give one after the other;
  `nextProperties_walk` : **they go through the list once, from the highest number down, and end**;
* `propertyLength_propertyAddress` : whatever stands in memory, **the length of a property is read off the address of
  its data**, if this is below 2^16; `propertyLength_highTable` : an address beyond loses its high bits, and its
  property looks absent.
-/

namespace StoryMachine.Object

/-! ## Size bytes -/

theorem toNat_numberOf (size : UInt8) : (numberOf size).toNat = size.toNat % 32 := by
  unfold numberOf
  rw [UInt8.toNat_toUInt16, UInt8.toNat_and]
  exact Nat.and_two_pow_sub_one_eq_mod size.toNat 5

/-! ## Property tables -/

/-- A property: its number, and one to eight bytes of data. -/
structure Property where
  number : UInt16
  first : UInt8
  rest : List UInt8
  number_pos : 0 < number.toNat
  number_le : number.toNat ≤ 31
  rest_le : rest.length ≤ 7

namespace Property

def data (property : Property) : List UInt8 :=
  property.first :: property.rest

/-- The size byte has the number in its low five bits, and one less than the length in the others. -/
def size (property : Property) : UInt8 :=
  (32 * property.rest.length + property.number.toNat).toUInt8

def bytes (property : Property) : List UInt8 :=
  property.size :: property.data

/-- The value of a property is its only byte, or its first word. -/
def value (property : Property) : UInt16 :=
  match property.rest with
  | [] => property.first.toUInt16
  | second :: _ => word property.first second

variable (property : Property)

theorem number_ne_zero : property.number ≠ 0 := by
  intro hzero
  have hpos := property.number_pos
  rw [hzero] at hpos
  exact Nat.lt_irrefl 0 hpos

theorem toNat_size : property.size.toNat = 32 * property.rest.length + property.number.toNat := by
  have hnumber := property.number_le
  have hrest := property.rest_le
  unfold size
  rw [Nat.toUInt8, UInt8.toNat_ofNat']
  exact Nat.mod_eq_of_lt (by omega)

theorem size_ne_zero : property.size ≠ 0 := by
  intro hzero
  have hsize := property.toNat_size
  have hpos := property.number_pos
  rw [hzero, UInt8.toNat_zero] at hsize
  omega

@[simp]
theorem numberOf_size : numberOf property.size = property.number := by
  have hnumber := property.number_le
  apply UInt16.toNat_inj.mp
  rw [toNat_numberOf, toNat_size]
  omega

@[simp]
theorem toNat_lengthOf_size : (lengthOf property.size).toNat = property.data.length := by
  have hnumber := property.number_le
  rw [toNat_lengthOf, toNat_size, data, List.length_cons]
  omega

theorem length_bytes : property.bytes.length = property.data.length + 1 := rfl

/-- From one size byte to the next, as lookups compute it. -/
theorem toNat_width : (1 + (lengthOf property.size).toUInt32).toNat = property.bytes.length := by
  have hrest := property.rest_le
  have hlength : (lengthOf property.size).toUInt32.toNat = property.data.length := by
    rw [UInt16.toNat_toUInt32, toNat_lengthOf_size]
  rw [toNat_add_of_lt, hlength, length_bytes]
  · exact Nat.add_comm ..
  · rw [hlength, data, List.length_cons]
    change 1 + (property.rest.length + 1) < _
    omega

end Property

/-- The bytes of a list of properties, with the zero byte that ends it. -/
def listBytes (properties : List Property) : List UInt8 :=
  properties.flatMap Property.bytes ++ [0]

/-- A property table: a name of so many words, and properties from the highest number down. -/
structure PropertyTable where
  name : List UInt16
  properties : List Property
  name_le : name.length ≤ 255
  descending : (properties.map Property.number).Pairwise (· > ·)

namespace PropertyTable

def numbers (table : PropertyTable) : List UInt16 :=
  table.properties.map Property.number

/-- What stands in front of the properties: the length of the name, and the name. -/
def heading (table : PropertyTable) : List UInt8 :=
  table.name.length.toUInt8 :: table.name.flatMap wordBytes

def bytes (table : PropertyTable) : List UInt8 :=
  table.heading ++ listBytes table.properties

/-- Where the data of the property behind the given ones begin, in a table at an address: its size byte is in front
of them. -/
def dataPlace (table : PropertyTable) (start : UInt16) (before : List Property) : Nat :=
  start.toNat + table.heading.length + (before.flatMap Property.bytes).length + 1

end PropertyTable

/-- Where the entry of an object begins: behind the default properties and the entries of lower objects. -/
def entryPlace (image : Image) (object : UInt16) : Nat :=
  image.header.objects.toNat + 62 + (object.toNat - 1) * 9

/-- The entry of the object lies in the image and ends with an address, and the table stands at this address. -/
structure PropertyTable.Stands (table : PropertyTable) (image : Image) (object start : UInt16) : Prop where
  object_pos : 0 < object.toNat
  object_le : object.toNat ≤ 255
  pointer : image.HoldsAt (entryPlace image object + 7) (wordBytes start)
  bytes : image.HoldsAt start.toNat table.bytes

namespace PropertyTable

variable {table : PropertyTable} {before after : List Property} {p : Property}

theorem length_heading (table : PropertyTable) : table.heading.length = 2 * table.name.length + 1 := by
  simp [heading, wordBytes, Nat.mul_comm]

/-- The properties in front of one have higher numbers. -/
theorem number_lt_of_split (h : table.properties = before ++ p :: after) :
    ∀ q ∈ before, p.number < q.number := by
  intro q hq
  have hdescending := table.descending
  rw [h, List.map_append, List.pairwise_append] at hdescending
  exact hdescending.2.2 q.number (List.mem_map_of_mem hq) p.number (by simp)

theorem nodup_numbers (table : PropertyTable) : table.numbers.Nodup :=
  table.descending.imp fun h => (UInt16.ne_of_lt h).symm

theorem zero_not_mem (table : PropertyTable) : 0 ∉ table.numbers := by
  intro hmem
  obtain ⟨p, -, hp⟩ := List.mem_map.mp hmem
  exact p.number_ne_zero hp

end PropertyTable

/-! ## Stories with one object -/

/-- The first bytes of a story whose object table is right behind its header: a header, default properties, of which
only the fifth is not zero, and an entry without the address at its end. -/
def objectFront : List UInt8 :=
  [0x03, 0x00, 0x00, 0x00, 0x00, 0x00, 0x00, 0x00, 0x00, 0x00, 0x00, 0x40, 0x00, 0x00, 0x00, 0x40] ++
    (List.replicate 56 0x00 ++ [0x0B, 0xAD] ++ List.replicate 59 0x00)

theorem length_objectFront : objectFront.length = 133 := by
  simp [objectFront]

/-- A story with one object, whose property table stands behind a gap. -/
def objectStory (start : UInt16) (gap : List UInt8) (table : PropertyTable) : Array UInt8 :=
  (objectFront ++ (wordBytes start ++ (gap ++ table.bytes))).toArray

section
variable {start : UInt16} {gap : List UInt8} {table : PropertyTable}

theorem size_objectStory : (objectStory start gap table).size = 135 + gap.length + table.bytes.length := by
  simp only [objectStory, List.size_toArray, List.length_append, length_objectFront, wordBytes, List.length_cons,
    List.length_nil]
  omega

theorem parse_objectStory : Header.parse (objectStory start gap table) = Header.parse objectFront.toArray :=
  Image.parse_append _ (by rw [length_objectFront]; decide)

theorem objects_objectStory : (Image.whole (objectStory start gap table)).header.objects.toNat = 0x40 := by
  change (Header.parse (objectStory start gap table)).objects.toNat = 0x40
  rw [parse_objectStory]
  decide +kernel

theorem load_objectStory (hsize : gap.length + table.bytes.length < 0x10000000) :
    Image.load (objectStory start gap table) = .ok (.whole (objectStory start gap table)) := by
  have hstory := @size_objectStory start gap table
  apply Image.load_eq_whole
  · omega
  · change 64 ≤ _
    omega
  · rw [parse_objectStory]
    decide +kernel
  · rw [parse_objectStory]
    decide +kernel
  · rw [parse_objectStory]
    decide +kernel
  · have hstatic : (Header.parse objectFront.toArray).staticBase.toNat = 64 := by decide +kernel
    rw [parse_objectStory, hstatic, hstory]
    omega

/-- The table stands where the entry says if the gap reaches up to there. -/
theorem stands_objectStory (hstart : start.toNat = 135 + gap.length) :
    table.Stands (.whole (objectStory start gap table)) 1 start := by
  have hall : (Image.whole (objectStory start gap table)).HoldsAt 0
      (objectFront ++ (wordBytes start ++ (gap ++ table.bytes))) := List.prefix_rfl
  have hpointer := hall.right
  have hentry : entryPlace (.whole (objectStory start gap table)) 1 + 7 = 0 + objectFront.length := by
    rw [entryPlace, objects_objectStory, length_objectFront]
    rfl
  refine ⟨by decide, by decide, ?_, ?_⟩
  · rw [hentry]
    exact hpointer.left
  · have hplace : start.toNat = 0 + objectFront.length + (wordBytes start).length + gap.length := by
      simp [length_objectFront, wordBytes, hstart]
    rw [hplace]
    exact hpointer.right.right

end

/-- A lamp, with properties 12, 7 and 3. -/
def lampTable : PropertyTable where
  name := [0x44D2, 0xD4A5]
  properties := [⟨12, 0x12, [0x34], by decide, by decide, by decide⟩,
    ⟨7, 0x99, [], by decide, by decide, by decide⟩,
    ⟨3, 0xAA, [0xBB, 0xCC, 0xDD], by decide, by decide, by decide⟩]
  name_le := by decide
  descending := by decide

def lampImage : Image :=
  .whole (objectStory 135 [] lampTable)

theorem load_lampImage : Image.load (objectStory 135 [] lampTable) = .ok lampImage :=
  load_objectStory (by decide)

theorem stands_lampTable : lampTable.Stands lampImage 1 135 :=
  stands_objectStory (by decide)

/-! ## From size byte to size byte -/

section
variable {image : Image} {address : UInt32} {number : UInt16} {passed : List UInt32}

theorem findFrom_eq {size : UInt8} (hread : image.readByte address = .ok size) :
    findFrom image number passed address =
      if size = 0 ∨ numberOf size < number then .ok .absent
      else if numberOf size = number then .ok ⟨address + 1, lengthOf size⟩
      else if address < behindProperty address size then
        findFrom image number passed (behindProperty address size)
      else if behindProperty address size ∈ passed then .ok .absent
      else findFrom image number (behindProperty address size :: passed) (behindProperty address size) := by
  rw [findFrom]
  split
  · rename_i error herror
    rw [hread] at herror
    cases herror
  · rename_i read hok
    rw [hread] at hok
    cases hok
    rfl

variable (hsize : image.bytes.size < 0x100000000)
include hsize

/-- Behind a property stands what its bytes are followed by. -/
theorem behind_property {p : Property} {rest : List UInt8} (h : image.Holds address (p.bytes ++ rest)) :
    (behindProperty address p.size).toNat = address.toNat + p.bytes.length ∧
      image.Holds (behindProperty address p.size) rest := by
  rw [behindProperty, UInt32.add_assoc]
  constructor
  · rw [h.toNat_add hsize _ (by rw [p.toNat_width]; simp), p.toNat_width]
  · exact h.right hsize _ p.toNat_width

/-- A lookup that comes to a property ends there if its number is lower or the same, and goes on behind it if not. -/
theorem findFrom_property {p : Property} {rest : List UInt8} (h : image.Holds address (p.bytes ++ rest)) :
    findFrom image number passed address =
      if p.number < number then .ok .absent
      else if p.number = number then .ok ⟨address + 1, lengthOf p.size⟩
      else findFrom image number passed (behindProperty address p.size) := by
  have hup : address < behindProperty address p.size := by
    rw [UInt32.lt_iff_toNat_lt, (behind_property hsize h).1, p.length_bytes]
    omega
  rw [findFrom_eq (Image.Holds.readByte hsize h)]
  simp only [p.size_ne_zero, false_or, Property.numberOf_size, hup, if_true]

theorem findFrom_end (h : image.Holds address [0]) : findFrom image number passed address = .ok .absent := by
  rw [findFrom_eq (h.readByte hsize), if_pos (.inl rfl)]

/-- A lookup passes over properties with higher numbers. -/
theorem findFrom_of_split {before after : List Property} {p : Property} {tail : List UInt8}
    (hbefore : ∀ q ∈ before, p.number < q.number)
    (h : image.Holds address ((before ++ p :: after).flatMap Property.bytes ++ tail)) :
    ∃ data, findFrom image p.number passed address = .ok data ∧
      data.address.toNat = address.toNat + (before.flatMap Property.bytes).length + 1 ∧
      data.length.toNat = p.data.length ∧
      image.Holds data.address (p.data ++ (after.flatMap Property.bytes ++ tail)) := by
  induction before generalizing address with
  | nil =>
    rw [List.nil_append, List.flatMap_cons, List.append_assoc] at h
    refine ⟨⟨address + 1, lengthOf p.size⟩, ?_, ?_, p.toNat_lengthOf_size, ?_⟩
    · rw [findFrom_property hsize h, if_neg (UInt16.lt_irrefl _), if_pos rfl]
    · exact h.toNat_add hsize 1 (by simp [Property.bytes])
    · exact @Image.Holds.right image address [p.size] _ hsize h 1 rfl
  | cons q before ih =>
    rw [List.cons_append, List.flatMap_cons, List.append_assoc] at h
    -- `q` has a higher number, so the search goes on where the rest of the list stands
    have hq := hbefore q List.mem_cons_self
    obtain ⟨hplace, hrest⟩ := behind_property hsize h
    obtain ⟨data, hfind, haddress, hlength, hholds⟩ :=
      ih (fun r hr => hbefore r (List.mem_cons_of_mem q hr)) hrest
    refine ⟨data, ?_, ?_, hlength, hholds⟩
    · rw [findFrom_property hsize h, if_neg (UInt16.lt_asymm hq), if_neg (UInt16.ne_of_lt hq).symm, hfind]
    · rw [haddress, hplace, List.flatMap_cons, List.length_append]
      omega

/-- A number that no property has is not found, whether the search ends at a lower number or behind the last. The
order of the properties does not matter here. -/
theorem findFrom_of_not_mem {properties : List Property} (hmem : number ∉ properties.map Property.number)
    (h : image.Holds address (listBytes properties)) :
    findFrom image number passed address = .ok .absent := by
  induction properties generalizing address with
  | nil => exact findFrom_end hsize h
  | cons p properties ih =>
    rw [listBytes, List.flatMap_cons, List.append_assoc] at h
    rw [List.map_cons, List.mem_cons, not_or] at hmem
    rw [findFrom_property hsize h]
    split
    · rfl
    · rw [if_neg (Ne.symm hmem.1)]
      exact ih hmem.2 (behind_property hsize h).2

end

/-! ## Lookups in a table -/

/-- Data in a table are never at address 0, which stands for a property that is not there. -/
theorem address_ne_zero {table : PropertyTable} {start : UInt16} {data : PropertyData} {before : List Property}
    (hplace : data.address.toNat = table.dataPlace start before) : data.address ≠ 0 := by
  intro hzero
  rw [hzero, PropertyTable.dataPlace] at hplace
  exact Nat.succ_ne_zero _ hplace.symm

section
variable {image : Image} {table : PropertyTable} {object start : UInt16} (himage : image.WellFormed)
  (h : table.Stands image object start)
include himage h

theorem propertyTable_eq : propertyTable image object = .ok start.toUInt32 := by
  have hsmall : ¬ (object > maxObject ∨ object = 0) := by
    have hpos := h.object_pos
    have hle := h.object_le
    rw [not_or, gt_iff_lt, UInt16.not_lt, UInt16.le_iff_toNat_le, ← UInt16.toNat_inj]
    exact ⟨hle, Nat.ne_of_gt hpos⟩
  obtain ⟨entry, hentry⟩ : ∃ entry, entryAddress image object = .ok entry := ⟨_, if_neg hsmall⟩
  have hplace : (entry + 7).toNat = entryPlace image object + 7 := by
    have hobjects := himage.objects_lt
    obtain ⟨⟨-, hobject⟩, hnat⟩ := toNat_entryAddress himage hentry
    rw [toNat_add_of_lt, hnat]
    · rfl
    · change entry.toNat + 7 < _
      omega
  have hpointer : image.Holds (entry + 7) (wordBytes start ++ []) := by
    rw [List.append_nil, Image.Holds, hplace]
    exact h.pointer
  rw [propertyTable, hentry, ok_bind, hpointer.readWord himage.size_lt, ok_bind]
  rfl

/-- The first size byte is behind the name. -/
theorem firstProperty_spec :
    ∃ first, firstProperty image object = .ok first ∧
      first.toNat = start.toNat + table.heading.length ∧ image.Holds first (listBytes table.properties) := by
  have hbytes : image.Holds start.toUInt32 table.bytes := by
    rw [Image.Holds, UInt16.toNat_toUInt32]
    exact h.bytes
  have hname := table.name_le
  have hwords : table.name.length.toUInt8.toNat = table.name.length := by
    rw [Nat.toUInt8, UInt8.toNat_ofNat']
    exact Nat.mod_eq_of_lt (by omega)
  have hoffset : (table.name.length.toUInt8.toUInt32 * 2 + 1).toNat = table.heading.length := by
    rw [UInt32.toNat_add, UInt32.toNat_mul, UInt8.toNat_toUInt32, hwords, table.length_heading]
    change (table.name.length * 2 % 4294967296 + 1) % 4294967296 = _
    omega
  refine ⟨start.toUInt32 + (table.name.length.toUInt8.toUInt32 * 2 + 1), ?_, ?_, ?_⟩
  · rw [firstProperty, propertyTable_eq himage h, ok_bind, Image.Holds.readByte himage.size_lt hbytes, ok_bind,
      ← UInt32.add_assoc]
    rfl
  · rw [hbytes.toNat_add himage.size_lt _ (by rw [hoffset]; simp [PropertyTable.bytes]), hoffset,
      UInt16.toNat_toUInt32]
  · exact hbytes.right himage.size_lt _ hoffset

theorem property_of_split {before after : List Property} {p : Property}
    (hsplit : table.properties = before ++ p :: after) :
    ∃ data, property image object p.number = .ok data ∧
      data.address.toNat = table.dataPlace start before ∧ data.length.toNat = p.data.length ∧
      image.Holds data.address (p.data ++ listBytes after) := by
  obtain ⟨first, hfirst, hplace, hholds⟩ := firstProperty_spec himage h
  rw [hsplit] at hholds
  obtain ⟨data, hfind, haddress, hlength, hdata⟩ :=
    findFrom_of_split himage.size_lt (table.number_lt_of_split hsplit) hholds
  refine ⟨data, ?_, ?_, hlength, hdata⟩
  · rw [property, hfirst, ok_bind, hfind]
  · rw [haddress, hplace, PropertyTable.dataPlace]

theorem property_of_not_mem {number : UInt16} (hmem : number ∉ table.numbers) :
    property image object number = .ok .absent := by
  obtain ⟨first, hfirst, -, hholds⟩ := firstProperty_spec himage h
  rw [property, hfirst, ok_bind, findFrom_of_not_mem himage.size_lt hmem hholds]

theorem propertyValue_of_split {before after : List Property} {p : Property}
    (hsplit : table.properties = before ++ p :: after) :
    propertyValue image object p.number = .ok p.value := by
  obtain ⟨data, hproperty, hplace, hlength, hholds⟩ := property_of_split himage h hsplit
  rw [propertyValue, hproperty, ok_bind, if_neg (address_ne_zero hplace)]
  cases hrest : p.rest with
  | nil =>
    have hone : data.length = 1 := by
      apply UInt16.toNat_inj.mp
      rw [hlength, Property.data, hrest]
      rfl
    rw [if_pos hone, Image.Holds.readByte himage.size_lt hholds, ok_bind, Property.value, hrest]
    rfl
  | cons second rest =>
    have hmore : data.length ≠ 1 := by
      intro hone
      rw [hone, Property.data, hrest] at hlength
      simp at hlength
    rw [Property.data, hrest] at hholds
    have hword : image.Holds data.address (wordBytes (word p.first second) ++ (rest ++ listBytes after)) := by
      rw [wordBytes_word]
      exact hholds
    rw [if_neg hmore, hword.readWord himage.size_lt, Property.value, hrest]

/-- The default properties lie in front of the object's entry, and so inside the image. -/
theorem propertyDefault_spec {number : UInt16} (hpos : 0 < number.toNat) (hle : number.toNat ≤ 31) :
    ∃ value, image.HoldsAt (image.header.objects.toNat + 2 * (number.toNat - 1)) (wordBytes value) ∧
      propertyDefault image number = .ok value := by
  have hobjects := himage.objects_lt
  have hend : entryPlace image object + 9 ≤ image.bytes.size := by
    have hlength := List.IsPrefix.length_le h.pointer
    simp only [wordBytes, List.length_cons, List.length_nil, List.length_drop, Array.length_toList] at hlength
    omega
  have hindex : ((number - 1).toUInt32 * 2).toNat = (number.toNat - 1) * 2 :=
    toNat_index_mul hpos (by decide)
  have hplace : (image.header.objects + (number - 1).toUInt32 * 2).toNat =
      image.header.objects.toNat + 2 * (number.toNat - 1) := by
    rw [toNat_add_of_lt (by omega), hindex, Nat.mul_comm]
  have hinside : (image.header.objects + (number - 1).toUInt32 * 2).toNat + 2 ≤ image.bytes.size := by
    unfold entryPlace at hend
    omega
  obtain ⟨value, hvalue⟩ := Image.exists_readWord himage.size_lt hinside
  refine ⟨value, ?_, ?_⟩
  · rw [← hplace]
    exact Image.Holds.of_readWord hvalue
  · have hvalid : ¬ (number < 1 ∨ number > maxProperty) := by
      rw [not_or, UInt16.not_lt, gt_iff_lt, UInt16.not_lt]
      exact ⟨UInt16.le_iff_toNat_le.mpr hpos, UInt16.le_iff_toNat_le.mpr hle⟩
    rw [propertyDefault, if_neg hvalid, hvalue]

theorem propertyValue_of_not_mem {number : UInt16} (hmem : number ∉ table.numbers) :
    propertyValue image object number = propertyDefault image number := by
  rw [propertyValue, property_of_not_mem himage h hmem, ok_bind]
  exact if_pos rfl

end

theorem propertyDefault_eq_error {image : Image} {number : UInt16} (h : number = 0 ∨ 31 < number.toNat) :
    propertyDefault image number = .error (.noProperty number) := by
  apply if_pos
  rcases h with rfl | hlt
  · exact .inl (by decide)
  · exact .inr (UInt16.lt_iff_toNat_lt.mpr hlt)

/-- **A lookup finds exactly the properties that are there.** Take any object of a story whose entry gives the
address of a property table. For the number of a property in the table, the lookup gives the address and the number
of its data bytes, and its value is its only byte or its first word. For every other number, the lookup gives the
zeros that stand for nothing, and the value is the default, which the image always has for a number from 1 to 31; any
other number is refused as an invalid reference. -/
theorem property_lookup {file : Array UInt8} {loaded image : Image} (hload : Image.load file = .ok loaded)
    (hsame : loaded.SameStory image) {table : PropertyTable} {object start : UInt16}
    (h : table.Stands image object start) (number : UInt16) :
    (∀ before p after, table.properties = before ++ p :: after → p.number = number →
      (∃ data, property image object number = .ok data ∧
        data.address.toNat = table.dataPlace start before ∧ data.length.toNat = p.data.length ∧
        image.Holds data.address p.data) ∧
      propertyValue image object number = .ok p.value) ∧
    (number ∉ table.numbers →
      property image object number = .ok .absent ∧
      (0 < number.toNat → number.toNat ≤ 31 → ∃ value,
        image.HoldsAt (image.header.objects.toNat + 2 * (number.toNat - 1)) (wordBytes value) ∧
        propertyValue image object number = .ok value) ∧
      (number = 0 ∨ 31 < number.toNat →
        propertyValue image object number = .error (.noProperty number))) := by
  have himage := hsame.wellFormed (Image.load_wellFormed hload)
  constructor
  · rintro before p after hsplit rfl
    obtain ⟨data, hproperty, hplace, hlength, hholds⟩ := property_of_split himage h hsplit
    exact ⟨⟨data, hproperty, hplace, hlength, Image.HoldsAt.left hholds⟩,
      propertyValue_of_split himage h hsplit⟩
  · intro hmem
    rw [propertyValue_of_not_mem himage h hmem]
    exact ⟨property_of_not_mem himage h hmem, fun hpos hle => propertyDefault_spec himage h hpos hle,
      propertyDefault_eq_error⟩

theorem property_lookup_sample :
    (∃ data, property lampImage 1 3 = .ok data ∧ data.address.toNat = 146 ∧ data.length.toNat = 4) ∧
      propertyValue lampImage 1 3 = .ok 0xAABB ∧
      property lampImage 1 5 = .ok .absent ∧
      (∃ value, lampImage.HoldsAt 0x48 (wordBytes value) ∧ propertyValue lampImage 1 5 = .ok value) ∧
      propertyValue lampImage 1 32 = .error (.noProperty 32) := by
  have hlookup := property_lookup load_lampImage (.refl _) stands_lampTable
  obtain ⟨⟨data, hproperty, hplace, hlength, -⟩, hvalue⟩ :=
    (hlookup 3).1 (lampTable.properties.take 2) _ [] rfl rfl
  obtain ⟨habsent, hdefault, -⟩ := (hlookup 5).2 (by decide)
  rw [lampImage, objects_objectStory] at hdefault
  obtain ⟨-, -, hrefused⟩ := (hlookup 32).2 (by decide)
  exact ⟨⟨data, hproperty, hplace.trans (by decide), hlength⟩, hvalue, habsent,
    hdefault (by decide) (by decide), hrefused (by decide)⟩

/-! ## One property after the other -/

/-- The numbers that as many calls for the next property give, each for the number that the last one gave. -/
def nextProperties (image : Image) (object : UInt16) : Nat → UInt16 → Except Error (List UInt16)
  | 0, _ => return []
  | calls + 1, number => do
    let next ← nextProperty image object number
    return next :: (← nextProperties image object calls next)

/-- The number at the head of a list of properties, 0 at its end. -/
def firstNumber : List Property → UInt16
  | [] => 0
  | p :: _ => p.number

theorem readByte_listBytes {image : Image} (hsize : image.bytes.size < 0x100000000) {address : UInt32}
    {properties : List Property} (h : image.Holds address (listBytes properties)) :
    ∃ size, image.readByte address = .ok size ∧ numberOf size = firstNumber properties := by
  cases properties with
  | nil => exact ⟨0, h.readByte hsize, rfl⟩
  | cons p properties => exact ⟨p.size, Image.Holds.readByte hsize h, p.numberOf_size⟩

section
variable {image : Image} {table : PropertyTable} {object start : UInt16} (himage : image.WellFormed)
  (h : table.Stands image object start)
include himage h

theorem nextProperty_zero : nextProperty image object 0 = .ok (firstNumber table.properties) := by
  obtain ⟨first, hfirst, -, hholds⟩ := firstProperty_spec himage h
  obtain ⟨size, hread, hnumber⟩ := readByte_listBytes himage.size_lt hholds
  rw [nextProperty, if_pos rfl, hfirst, ok_bind, hread, ok_bind, hnumber]
  rfl

/-- Behind a property comes the next one of the list. -/
theorem nextProperty_of_split {before after : List Property} {p : Property}
    (hsplit : table.properties = before ++ p :: after) :
    nextProperty image object p.number = .ok (firstNumber after) := by
  obtain ⟨data, hproperty, hplace, hlength, hholds⟩ := property_of_split himage h hsplit
  have hbehind := hholds.right himage.size_lt data.length.toUInt32 (by rw [UInt16.toNat_toUInt32, hlength])
  obtain ⟨size, hread, hnumber⟩ := readByte_listBytes himage.size_lt hbehind
  rw [nextProperty, if_neg p.number_ne_zero, hproperty, ok_bind]
  change (if data.address = 0 then _ else _) = _
  rw [if_neg (address_ne_zero hplace)]
  change (do return numberOf (← image.readByte (data.address + data.length.toUInt32))) = _
  rw [hread, ok_bind, hnumber]
  rfl

theorem nextProperty_of_not_mem {number : UInt16} (hne : number ≠ 0) (hmem : number ∉ table.numbers) :
    nextProperty image object number = .error (.lacksProperty object number) := by
  rw [nextProperty, if_neg hne, property_of_not_mem himage h hmem, ok_bind]
  rfl

/-- From where the rest of the list comes next, the calls go through the rest and end. -/
theorem nextProperties_rest {before rest : List Property} (hsplit : table.properties = before ++ rest)
    {number : UInt16} (hnext : nextProperty image object number = .ok (firstNumber rest)) :
    nextProperties image object (rest.length + 1) number = .ok (rest.map Property.number ++ [0]) := by
  induction rest generalizing before number with
  | nil =>
    rw [nextProperties, hnext, ok_bind]
    rfl
  | cons p rest ih =>
    have hsplit' : table.properties = (before ++ [p]) ++ rest := by simp [hsplit]
    have hrest := ih hsplit' (nextProperty_of_split himage h hsplit)
    rw [nextProperties, hnext, ok_bind, List.length_cons, firstNumber, hrest, ok_bind]
    rfl

end

/-- **Calls for the next property go through the list once and end.** In a table of `k` properties, the first `k + 1`
calls, of which the first is for number 0, give the numbers in the table from the highest down, and then 0; no
number comes twice, and none of them is 0. A number that is not in the table is refused, unless it is 0. -/
theorem nextProperties_walk {file : Array UInt8} {loaded image : Image} (hload : Image.load file = .ok loaded)
    (hsame : loaded.SameStory image) {table : PropertyTable} {object start : UInt16}
    (h : table.Stands image object start) :
    nextProperties image object (table.properties.length + 1) 0 = .ok (table.numbers ++ [0]) ∧
    table.numbers.Nodup ∧ 0 ∉ table.numbers ∧
    ∀ number, number ≠ 0 → number ∉ table.numbers →
      nextProperty image object number = .error (.lacksProperty object number) := by
  have himage := hsame.wellFormed (Image.load_wellFormed hload)
  refine ⟨?_, table.nodup_numbers, table.zero_not_mem, fun _ => nextProperty_of_not_mem himage h⟩
  exact nextProperties_rest himage h (List.nil_append _).symm (nextProperty_zero himage h)

theorem nextProperties_walk_sample :
    nextProperties lampImage 1 4 0 = .ok [12, 7, 3, 0] ∧
      nextProperty lampImage 1 9 = .error (.lacksProperty 1 9) := by
  obtain ⟨hwalk, -, -, hrefused⟩ := nextProperties_walk load_lampImage (.refl _) stands_lampTable
  exact ⟨hwalk, hrefused 9 (by decide) (by decide)⟩

/-! ## Lengths read off addresses -/

section
variable {image : Image} {number : UInt16} {data : PropertyData}

/-- A lookup finds nothing, or the data behind a size byte. -/
theorem cases_of_findFrom {passed : List UInt32} {address : UInt32}
    (h : findFrom image number passed address = .ok data) :
    data = .absent ∨ ∃ place size, image.readByte place = .ok size ∧ data = ⟨place + 1, lengthOf size⟩ := by
  fun_induction findFrom image number passed address with
  | case1 => cases h
  | case2 =>
    cases h
    exact .inl rfl
  | case3 passed address size hread =>
    cases h
    exact .inr ⟨address, size, hread, rfl⟩
  | case4 passed address size hread hbelow hother hup ih => exact ih h
  | case5 =>
    cases h
    exact .inl rfl
  | case6 passed address size hread hbelow hother hlast hnew ih => exact ih h

theorem behind_readByte_ne_zero {place : UInt32} {size : UInt8} (hread : image.readByte place = .ok size) :
    place + 1 ≠ 0 := by
  intro hzero
  have hplace := Image.toNat_behind_readByte hread
  rw [hzero] at hplace
  exact Nat.succ_ne_zero _ hplace.symm

/-- The size byte is found again in front of data whose address a word can hold. -/
theorem propertyLength_behind {place : UInt32} {size : UInt8} (hread : image.readByte place = .ok size)
    (hlow : (place + 1).toNat < 0x10000) :
    propertyLength image (place + 1).toUInt16 = .ok (lengthOf size) := by
  have hword : (place + 1).toUInt16.toUInt32 = place + 1 := by
    apply UInt32.toNat_inj.mp
    rw [UInt16.toNat_toUInt32, UInt32.toNat_toUInt16]
    exact Nat.mod_eq_of_lt hlow
  have hne : (place + 1).toUInt16 ≠ 0 := by
    intro hzero
    rw [hzero] at hword
    exact behind_readByte_ne_zero hread hword.symm
  rw [propertyLength, if_neg hne, hword, UInt32.add_sub_cancel, hread, ok_bind]
  rfl

theorem lengthOf_bounds (size : UInt8) : 1 ≤ (lengthOf size).toNat ∧ (lengthOf size).toNat ≤ 8 := by
  have hsize := size.toNat_lt
  rw [toNat_lengthOf]
  omega

end

/-- **The length of a property is read off the address of its data**, if a word can hold this address. Nothing is
assumed of the image and what stands in it: wherever a lookup ends without an error, the length is that of the data
it has found, from 1 to 8, or 0 if it has found nothing. -/
theorem propertyLength_propertyAddress {image : Image} {object number : UInt16} {data : PropertyData}
    (h : property image object number = .ok data) (hlow : data.address.toNat < 0x10000) :
    (propertyAddress image object number >>= propertyLength image) = .ok data.length ∧
      (data = .absent ∧ data.length.toNat = 0 ∨
        data.address ≠ 0 ∧ 1 ≤ data.length.toNat ∧ data.length.toNat ≤ 8) := by
  have haddress : propertyAddress image object number = .ok data.address.toUInt16 := by
    rw [propertyAddress, h, ok_bind]
    rfl
  rw [haddress, ok_bind]
  obtain ⟨first, -, hfind⟩ := exists_of_bind_eq_ok h
  rcases cases_of_findFrom hfind with rfl | ⟨place, size, hread, rfl⟩
  · exact ⟨rfl, .inl ⟨rfl, rfl⟩⟩
  · exact ⟨propertyLength_behind hread hlow, .inr ⟨behind_readByte_ne_zero hread, lengthOf_bounds size⟩⟩

theorem propertyLength_propertyAddress_sample :
    (propertyAddress lampImage 1 3 >>= propertyLength lampImage) = .ok 4 ∧
      (propertyAddress lampImage 1 5 >>= propertyLength lampImage) = .ok 0 := by
  have hfound : property lampImage 1 3 = .ok ⟨146, 4⟩ := by decide +kernel
  have habsent : property lampImage 1 5 = .ok .absent := by decide +kernel
  exact ⟨(propertyLength_propertyAddress hfound (by decide)).1,
    (propertyLength_propertyAddress habsent (by decide)).1⟩

/-- A nameless table with property 5 alone, which has three bytes of data. -/
def highTable : PropertyTable where
  name := []
  properties := [⟨5, 0xAA, [0xBB, 0xCC], by decide, by decide, by decide⟩]
  name_le := by decide
  descending := by decide

/-- The table begins two bytes below 2^16, and so its data at 2^16. -/
def highStory : Array UInt8 :=
  objectStory 0xFFFE (List.replicate 65399 0) highTable

def highImage : Image :=
  .whole highStory

/-- Data behind the first 2^16 bytes are found, but their address as a word is that of a property that is not there,
and so is their length. -/
theorem propertyLength_highTable :
    Image.load highStory = .ok highImage ∧ property highImage 1 5 = .ok ⟨0x10000, 3⟩ ∧
      propertyAddress highImage 1 5 = .ok 0 ∧
      (propertyAddress highImage 1 5 >>= propertyLength highImage) = .ok 0 := by
  have hload : Image.load highStory = .ok highImage :=
    load_objectStory (by rw [List.length_replicate]; decide)
  have hstands : highTable.Stands highImage 1 0xFFFE :=
    stands_objectStory (by rw [List.length_replicate]; rfl)
  obtain ⟨⟨address, length⟩, hproperty, hplace, hlength, -⟩ :=
    property_of_split (Image.load_wellFormed hload) hstands (List.nil_append highTable.properties).symm
  obtain rfl : address = 0x10000 := UInt32.toNat_inj.mp hplace
  obtain rfl : length = 3 := UInt16.toNat_inj.mp hlength
  have haddress : propertyAddress highImage 1 5 = .ok 0 := by
    rw [propertyAddress, hproperty, ok_bind]
    rfl
  refine ⟨hload, hproperty, haddress, ?_⟩
  rw [haddress]
  rfl

end StoryMachine.Object
