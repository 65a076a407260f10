import StoryMachine.Error

/-!
# Story images

An `Image` is the memory of a story. Its bytes below the static base are dynamic memory, which the
story may write; the rest never changes. The header is read once, when the story is loaded: a story
that overwrites its own header bytes changes neither the image's limits nor its tables' addresses.

* `Image.load`: checks the header and drops zero padding behind the declared length;
* `Image.readByte`, `readWord`, `readLong`: big-endian reads, refused outside the image;
* `Image.writeByte`, `writeWord`: writes, refused outside dynamic memory;
* `Image.reset`, `Image.checksum`: dynamic memory as loaded, and the sum of the loaded story.
-/

namespace StoryMachine

def headerSize : Nat := 0x40

/-- The header fields that an interpreter uses. -/
structure Header where
  version : UInt8
  highMemory : UInt16
  initialPC : UInt16
  dictionary : UInt32
  objects : UInt32
  globals : UInt32
  staticBase : UInt32
  abbreviations : UInt32
  /-- The length of the story in bytes. -/
  length : UInt32
  checksum : UInt16
  deriving DecidableEq

/-- The word made of a high and a low byte. -/
def word (high low : UInt8) : UInt16 :=
  high.toUInt16 <<< 8 ||| low.toUInt16

def unpackAddress (packed : UInt16) : UInt32 :=
  packed.toUInt32 * 2

namespace Header

def wordAt (file : Array UInt8) (index : Nat) : UInt16 :=
  word (file.getD index 0) (file.getD (index + 1) 0)

/-- Reads the fields of a file that is long enough for a header. The file holds half its length. -/
def parse (file : Array UInt8) : Header where
  version := file.getD 0 0
  highMemory := wordAt file 0x4
  initialPC := wordAt file 0x6
  dictionary := (wordAt file 0x8).toUInt32
  objects := (wordAt file 0xA).toUInt32
  globals := (wordAt file 0xC).toUInt32
  staticBase := (wordAt file 0xE).toUInt32
  abbreviations := (wordAt file 0x18).toUInt32
  length := (wordAt file 0x1A).toUInt32 * 2
  checksum := wordAt file 0x1C

end Header

/-- The memory of a story: its header and bytes, and dynamic memory as it was loaded. -/
structure Image where
  header : Header
  bytes : Array UInt8
  pristine : Array UInt8
  deriving DecidableEq

namespace Image

/-- Loads a story file. A blank length stands for the whole file; a shorter one may only cut off
zeros. -/
def load (file : Array UInt8) : Except Error Image :=
  if file.size < headerSize then .error (.tooShort file.size)
  else
    let declared := Header.parse file
    let size := file.size.toUInt32
    let length := if declared.length = 0 then size else declared.length
    if declared.version ≠ 3 then .error (.wrongVersion declared.version)
    else if length > size ∨ ¬ file.all (· == 0) length.toNat then .error (.wrongLength length size)
    else if declared.staticBase < headerSize.toUInt32 ∨ declared.staticBase > length then
      .error (.wrongStaticBase declared.staticBase)
    else
      let bytes := file.extract 0 length.toNat
      .ok {
        header := { declared with length }
        bytes
        pristine := bytes.extract 0 declared.staticBase.toNat }

def length (image : Image) : UInt32 :=
  image.bytes.size.toUInt32

/-- The byte at an address that has been checked. -/
def cell (image : Image) (address : UInt32) : Except Error UInt8 :=
  match image.bytes[address.toNat]? with
  | some byte => .ok byte
  | none => .error (.outsideTable .image)

def readByte (image : Image) (address : UInt32) : Except Error UInt8 :=
  if address ≥ image.length then .error (.readByte address)
  else image.cell address

def readWord (image : Image) (address : UInt32) : Except Error UInt16 :=
  if address ≥ image.length ∨ address + 1 ≥ image.length then .error (.readWord address)
  else do
    let high ← image.cell address
    let low ← image.cell (address + 1)
    return word high low

/-- The big-endian number of four bytes at an address. Only the address of its last byte is
checked, in 32-bit arithmetic. -/
def readLong (image : Image) (address : UInt32) : Except Error UInt32 :=
  if address + 3 ≥ image.length then .error (.readLong address)
  else do
    let b0 ← image.cell address
    let b1 ← image.cell (address + 1)
    let b2 ← image.cell (address + 2)
    let b3 ← image.cell (address + 3)
    return b0.toUInt32 <<< 24 ||| b1.toUInt32 <<< 16 ||| b2.toUInt32 <<< 8 ||| b3.toUInt32

/-- Dynamic memory lies below the static base of the loaded header. -/
def writable (image : Image) (address : UInt32) : Bool :=
  address < image.header.staticBase

def setCell (image : Image) (address : UInt32) (value : UInt8) : Except Error Image :=
  if h : address.toNat < image.bytes.size then
    .ok { image with bytes := image.bytes.set address.toNat value h }
  else .error (.outsideTable .image)

def writeByte (image : Image) (address : UInt32) (value : UInt8) : Except Error Image :=
  if image.writable address then image.setCell address value
  else .error (.writeByte address)

/-- Writes a word to dynamic memory, high byte first. -/
def writeWord (image : Image) (address : UInt32) (value : UInt16) : Except Error Image :=
  if image.writable address && image.writable (address + 1) then do
    let image ← image.setCell address (value >>> 8).toUInt8
    image.setCell (address + 1) value.toUInt8
  else .error (.writeWord address)

/-- The bytes of the story as loaded: pristine dynamic memory, then static memory. -/
def loaded (image : Image) : Array UInt8 :=
  image.pristine ++ image.bytes.extract image.pristine.size

def reset (image : Image) : Image :=
  { image with bytes := image.loaded }

/-- The sum of the loaded bytes behind the header, as a word. -/
def checksum (image : Image) : UInt16 :=
  (image.loaded.toList.drop headerSize).foldl (fun sum byte => sum + byte.toUInt16) 0

end Image

end StoryMachine
