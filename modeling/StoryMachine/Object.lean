import StoryMachine.Text.Decode

/-!
# Objects

The object table holds 31 default property values, then an entry of nine bytes for each object:
32 attribute flags, the parent, sibling and child, and the address of the property table. A property
table is a name, preceded by its length in words, then the properties from the highest number down,
each behind a size byte that gives its number and length, and a zero byte at the end.

Object 0 stands for no object. Objects are read here and never changed.
-/

namespace StoryMachine.Object

def maxObject : UInt16 := 255

def maxAttribute : UInt16 := 31

def maxProperty : UInt16 := 31

def entrySize : UInt32 := 9

def defaultsSize : UInt32 := 31 * 2

/-! ## Entries -/

def entryAddress (image : Image) (object : UInt16) : Except Error UInt32 :=
  if object > maxObject ∨ object = 0 then .error (.noObject object)
  else .ok (image.header.objects + defaultsSize + (object - 1).toUInt32 * entrySize)

def entryByte (image : Image) (object : UInt16) (offset : UInt32) : Except Error UInt16 := do
  let entry ← entryAddress image object
  return (← image.readByte (entry + offset)).toUInt16

def parent (image : Image) (object : UInt16) : Except Error UInt16 :=
  entryByte image object 4

/-- The next object with the same parent. -/
def sibling (image : Image) (object : UInt16) : Except Error UInt16 :=
  entryByte image object 5

def child (image : Image) (object : UInt16) : Except Error UInt16 :=
  entryByte image object 6

def isInside (image : Image) (object container : UInt16) : Except Error Bool :=
  return (← parent image object) = container

/-- Whether an attribute is set; attribute 0 is the top bit of the flags. -/
def hasAttribute (image : Image) (object number : UInt16) : Except Error Bool :=
  if number > maxAttribute then .error (.noAttribute number)
  else do
    let flags ← image.readLong (← entryAddress image object)
    return flags &&& (1 <<< (31 - number.toUInt32)) ≠ 0

/-! ## Properties -/

def propertyTable (image : Image) (object : UInt16) : Except Error UInt32 := do
  return (← image.readWord ((← entryAddress image object) + 7)).toUInt32

/-- The address of the first size byte, behind the name. -/
def firstProperty (image : Image) (object : UInt16) : Except Error UInt32 := do
  let table ← propertyTable image object
  let words ← image.readByte table
  return table + words.toUInt32 * 2 + 1

/-- The property number in a size byte. -/
def numberOf (size : UInt8) : UInt16 :=
  (size &&& 0x1F).toUInt16

/-- The number of data bytes that a size byte announces. -/
def lengthOf (size : UInt8) : UInt16 :=
  (size >>> 5).toUInt16 + 1

/-- Where a property's data is and how many bytes it has. -/
structure PropertyData where
  address : UInt32
  length : UInt16
  deriving DecidableEq

/-- The outcome of a lookup that found nothing. -/
def PropertyData.absent : PropertyData where
  address := 0
  length := 0

theorem lt_length_of_readByte {image : Image} {address : UInt32} {byte : UInt8}
    (h : image.readByte address = .ok byte) : address.toNat < image.length.toNat := by
  unfold Image.readByte at h
  split at h
  · contradiction
  · rename_i h'
    exact UInt32.lt_iff_toNat_lt.mp (UInt32.not_le.mp h')

theorem toNat_lengthOf (size : UInt8) : (lengthOf size).toNat = size.toNat / 32 + 1 := by
  have hsize := size.toNat_lt
  unfold lengthOf
  rw [UInt16.toNat_add, UInt8.toNat_toUInt16, UInt8.toNat_shiftRight, Nat.shiftRight_eq_div_pow]
  change (size.toNat / 32 + 1) % 65536 = _
  omega

/-- The address of the next size byte. Behind the last address comes the first one. -/
def behindProperty (address : UInt32) (size : UInt8) : UInt32 :=
  address + 1 + (lengthOf size).toUInt32

theorem behindProperty_lt {image : Image} {address : UInt32} {size : UInt8}
    (hread : image.readByte address = .ok size) (h : ¬ address < behindProperty address size) :
    (behindProperty address size).toNat < 8 := by
  have hlast := image.length.toNat_lt
  have haddress := lt_length_of_readByte hread
  have hlength := toNat_lengthOf size
  have hsize := size.toNat_lt
  rw [UInt32.lt_iff_toNat_lt] at h
  unfold behindProperty at h ⊢
  rw [UInt32.toNat_add, UInt32.toNat_add, UInt16.toNat_toUInt32, UInt32.toNat_one] at h ⊢
  omega

/-- How many of the first eight addresses a search has not come back to. -/
def unpassed (passed : List UInt32) : Nat :=
  ((List.range 8).filter fun place => place.toUInt32 ∉ passed).length

theorem unpassed_lt {passed : List UInt32} {address : UInt32} (haddress : address.toNat < 8)
    (h : address ∉ passed) : unpassed (address :: passed) < unpassed passed := by
  have hsame : address.toNat.toUInt32 = address := UInt32.ofNat_toNat
  have hmore : ((List.range 8).filter fun place => place.toUInt32 ∉ address :: passed) =
      ((List.range 8).filter fun place => place.toUInt32 ∉ passed).filter fun place =>
        place.toUInt32 ≠ address := by
    rw [List.filter_filter]
    simp
  rw [unpassed, hmore, unpassed, List.length_filter_lt_length_iff_exists]
  exact ⟨address.toNat, by simp [haddress, hsame, h], by simp [hsame]⟩

/-- Looks a property up from the size byte at an address on. Properties stand in descending order,
so the search ends at the first lower number. In an image that takes up nearly all addresses it can go on
at the first ones; if it comes to one of those, the `passed` ones, again, it goes around without end and
finds nothing. -/
def findFrom (image : Image) (property : UInt16) (passed : List UInt32) (address : UInt32) :
    Except Error PropertyData :=
  match _ : image.readByte address with
  | .error error => .error error
  | .ok size =>
    if size = 0 ∨ numberOf size < property then .ok .absent
    else if numberOf size = property then .ok ⟨address + 1, lengthOf size⟩
    else if address < behindProperty address size then
      findFrom image property passed (behindProperty address size)
    else if behindProperty address size ∈ passed then .ok .absent
    else findFrom image property (behindProperty address size :: passed) (behindProperty address size)
termination_by unpassed passed * 0x100000000 + (image.length.toNat - address.toNat)
decreasing_by
  · have hinside := lt_length_of_readByte ‹_›
    rename_i hup
    rw [UInt32.lt_iff_toNat_lt] at hup
    omega
  · have hlast := image.length.toNat_lt
    have hfewer := unpassed_lt (behindProperty_lt ‹_› ‹_›) ‹_›
    omega

def property (image : Image) (object number : UInt16) : Except Error PropertyData := do
  findFrom image number [] (← firstProperty image object)

/-- The address of a property's data as a word, 0 if the object lacks it. -/
def propertyAddress (image : Image) (object number : UInt16) : Except Error UInt16 :=
  return (← property image object number).address.toUInt16

/-- The number of the property behind a given one, or of the first one for 0; it is 0 at the end of
the list. -/
def nextProperty (image : Image) (object number : UInt16) : Except Error UInt16 := do
  if number = 0 then
    return numberOf (← image.readByte (← firstProperty image object))
  else
    let data ← property image object number
    if data.address = 0 then throw (.lacksProperty object number)
    return numberOf (← image.readByte (data.address + data.length.toUInt32))

def propertyDefault (image : Image) (number : UInt16) : Except Error UInt16 :=
  if number < 1 ∨ number > maxProperty then .error (.noProperty number)
  else image.readWord (image.header.objects + (number - 1).toUInt32 * 2)

/-- The value of a property: a single byte, the first word of longer data, or the default where the
object lacks it. -/
def propertyValue (image : Image) (object number : UInt16) : Except Error UInt16 := do
  let data ← property image object number
  if data.address = 0 then propertyDefault image number
  else if data.length = 1 then return (← image.readByte data.address).toUInt16
  else image.readWord data.address

/-- The length of the property data at an address, read off the size byte before it; 0 for
address 0. -/
def propertyLength (image : Image) (address : UInt16) : Except Error UInt16 :=
  if address = 0 then .ok 0
  else return lengthOf (← image.readByte (address.toUInt32 - 1))

/-! ## Names -/

/-- The short name of an object, decoded to at most `limit` characters. -/
def name (image : Image) (rules : Text.Rules) (limit : Int) (object : UInt16) : Text.Decoded :=
  let located : Except Error (UInt32 × UInt8) := do
    let table ← propertyTable image object
    return (table, ← image.readByte table)
  match located with
  | .error error => ⟨[], some error⟩
  | .ok (table, words) =>
    if words = 0 then ⟨[], none⟩
    else Text.decode image rules limit (table + 1)

end StoryMachine.Object
