import StoryMachine.InputBuffer
import StoryMachine.Object
import StoryMachine.Proofs.Image
import StoryMachine.Proofs.KeyBuffer

/-!
# Reading tables and text

Whatever bytes a well-formed image holds, reading a string, an object, a property or the dictionary
ends in a value or in an error that halts the machine:

* `codesAt_guarded`, `endOf_guarded`, `decode_failure` : text, where nested abbreviations and the
  length limit may also cut it short; `lt_32_of_mem_codesAt` keeps every code inside its alphabet, and
  `endOf_bounds` keeps the address behind a string inside the image;
* `Object.*_guarded`, `Dictionary.*_guarded` : the tables. The four bytes of attribute flags and of
  dictionary keys lie below 2^24, so that their last address never wraps around;
* `obeys_fill` : storing a line writes to dynamic memory only.
-/

namespace StoryMachine

open Relation (ReflTransGen)

variable {image : Image}

/-! ## The address behind what was read -/

theorem Image.behind_readByte {address : UInt32} {byte : UInt8}
    (h : image.readByte address = .ok byte) : (address + 1).toNat ≤ image.length.toNat := by
  have hlt := Object.lt_length_of_readByte h
  have hlength := image.length.toNat_lt
  rw [toNat_add_of_lt (by simp; omega)]
  exact hlt

theorem Image.behind_readWord {address : UInt32} {word : UInt16}
    (h : image.readWord address = .ok word) :
    (address + 2).toNat = address.toNat + 2 ∧ address.toNat + 2 ≤ image.length.toNat := by
  have hlt := Text.lt_length_of_readWord h
  have hlength := image.length.toNat_lt
  exact ⟨toNat_add_of_lt (by simp; omega), hlt⟩

/-! ## Text -/

namespace Text

theorem codesAt_guarded (h : image.WellFormed) (address : UInt32) :
    Guarded (codesAt image address) := by
  fun_induction codesAt image address with
  | case1 address error hread => exact .error (Image.readWord_guarded h address error hread)
  | case2 => exact .ok _
  | case3 address word hread hend ih => exact .bind ih fun _ _ => .pure _

theorem endOf_guarded (h : image.WellFormed) (address : UInt32) : Guarded (endOf image address) := by
  fun_induction endOf image address with
  | case1 address error hread => exact .error (Image.readWord_guarded h address error hread)
  | case2 => exact .ok _
  | case3 address word hread hend ih => exact ih

/-- A string has at least one word and ends inside the image. -/
theorem endOf_bounds {address behind : UInt32} (h : endOf image address = .ok behind) :
    address.toNat + 2 ≤ behind.toNat ∧ behind.toNat ≤ image.length.toNat := by
  fun_induction endOf image address with
  | case1 => cases h
  | case2 address word hread hend =>
    obtain ⟨hadd, hle⟩ := Image.behind_readWord hread
    cases h
    omega
  | case3 address word hread hend ih =>
    obtain ⟨hadd, hle⟩ := Image.behind_readWord hread
    have hbounds := ih h
    omega

theorem lt_32_of_mem_unpackCodes {word : UInt16} {code : UInt8} (h : code ∈ unpackCodes word) :
    code.toNat < 32 := by
  have hmask : ∀ w : UInt16, (w &&& 0x1F).toUInt8.toNat < 32 := by
    intro w
    rw [UInt16.toNat_toUInt8, UInt16.toNat_and]
    have := @Nat.and_le_right w.toNat 31
    change (w.toNat &&& 31) % 0x100 < 32
    omega
  simp only [unpackCodes, List.mem_cons, List.not_mem_nil, or_false] at h
  rcases h with rfl | rfl | rfl
  · exact hmask _
  · exact hmask _
  · exact hmask _

theorem lt_32_of_mem_codesAt {address : UInt32} {codes : List UInt8}
    (h : codesAt image address = .ok codes) : ∀ code ∈ codes, code.toNat < 32 := by
  fun_induction codesAt image address generalizing codes with
  | case1 => cases h
  | case2 address word hread hend =>
    cases h
    exact fun code hcode => lt_32_of_mem_unpackCodes hcode
  | case3 address word hread hend ih =>
    cases hrest : codesAt image (address + 2) with
    | error e =>
      rw [hrest] at h
      cases h
    | ok rest =>
      rw [hrest] at h
      cases h
      intro code hcode
      rcases List.mem_append.mp hcode with hcode | hcode
      · exact lt_32_of_mem_unpackCodes hcode
      · exact ih hrest code hcode

theorem Alphabet.length_row (alphabet : Alphabet) : alphabet.row.length = 26 := by
  cases alphabet <;> decide

/-- A letter's code, 6 or more, does not wrap around when its place in the row is taken. -/
theorem toNat_sub_six {code : UInt8} (h : 6 ≤ code.toNat) : (code - 6).toNat = code.toNat - 6 :=
  UInt8.toNat_sub_of_le _ _ (UInt8.le_iff_toNat_le.mpr h)

theorem letter_guarded (alphabet : Alphabet) {code : UInt8} (hlow : 6 ≤ code.toNat) (hhigh : code.toNat < 32) :
    Guarded (alphabet.letter code) := by
  have hrow : (code - 6).toNat < alphabet.row.length := by
    rw [alphabet.length_row, toNat_sub_six hlow]
    omega
  unfold Alphabet.letter
  rw [List.getElem?_eq_getElem hrow]
  exact .ok _

/-- Text is cut short by errors that halt the machine, and by those that only end the text. -/
def law : Law (Array UInt8) where
  Change _ _ := True
  Good _ := True
  Raises _ error := error.operational ∨ error.recoverable
  good_of_change _ _ := trivial
  raises_of_change _ h := h

theorem obeys_ofExcept {α : Type} {result : Except Error α} (h : Guarded result) :
    (Exec.ofExcept result : Exec (Array UInt8) α).Obeys law :=
  .ofExcept fun _ _ error he => .inl (h error he)

theorem obeys_emit (limit : Int) (character : UInt8) : (emit limit character).Obeys law := by
  refine ⟨fun _ _ => .single trivial, ?_⟩
  intro text _ error he
  unfold emit at he
  rw [Exec.perform_bind_ok (Exec.perform_get text)] at he
  split at he
  · cases he
    exact .inr rfl
  · cases he

theorem obeys_interpret (mode : ShiftMode) (limit : Int) {expand : Nat → Exec (Array UInt8) Unit}
    (hexpand : ∀ number, (expand number).Obeys law) (shift : Shift) (codes : List UInt8)
    (hcodes : ∀ code ∈ codes, code.toNat < 32) :
    (interpret mode limit expand shift codes).Obeys law := by
  fun_induction interpret mode limit expand shift codes with
  | case1 => exact .pure ()
  | case2 shift rest ih =>
    exact .bind (obeys_emit limit space) fun _ => ih fun code h => hcodes code (.tail _ h)
  | case3 => exact .pure ()
  | case4 shift code _ _ second rest ih =>
    exact .bind (hexpand _) fun _ => ih fun code h => hcodes code (.tail _ (.tail _ h))
  | case5 shift rest _ _ ih => exact ih fun code h => hcodes code (.tail _ h)
  | case6 shift rest _ _ _ ih => exact ih fun code h => hcodes code (.tail _ h)
  | case7 shift code _ _ _ _ _ high low rest ih =>
    exact .bind (obeys_emit limit _) fun _ => ih fun code h => hcodes code (.tail _ (.tail _ (.tail _ h)))
  | case8 => exact .pure ()
  | case9 shift code rest _ hshort hupper hsymbols _ ih =>
    -- the codes below 6 are blanks, abbreviations and shifts
    have hlow : 6 ≤ code.toNat := by
      rw [UInt8.lt_iff_toNat_lt] at hshort
      rw [← UInt8.toNat_inj] at hupper hsymbols
      simp at hshort hupper hsymbols
      omega
    refine .bind (obeys_ofExcept (letter_guarded _ hlow (hcodes code (.head _)))) ?_
    intro letter
    exact .bind (obeys_emit limit letter) fun _ => ih fun code h => hcodes code (.tail _ h)

theorem obeys_expand (h : image.WellFormed) (rules : Rules) (limit : Int) (levels number : Nat) :
    (expand image rules limit levels number).Obeys law := by
  induction levels generalizing number with
  | zero => exact .throw fun _ _ => .inr rfl
  | succ levels ih =>
    rw [expand]
    refine .bind (obeys_ofExcept (Image.readWord_guarded h _)) ?_
    intro packed
    refine .ofExcept_bind (fun _ _ e he => .inl (codesAt_guarded h _ e he)) ?_
    intro codes hcodes
    exact obeys_interpret _ _ ih {} codes (lt_32_of_mem_codesAt hcodes)

theorem obeys_write (h : image.WellFormed) (rules : Rules) (limit : Int) (address : UInt32) :
    (write image rules limit address).Obeys law := by
  refine .ofExcept_bind (fun _ _ e he => .inl (codesAt_guarded h _ e he)) ?_
  intro codes hcodes
  exact obeys_interpret _ _ (obeys_expand h rules limit _) {} codes (lt_32_of_mem_codesAt hcodes)

/-- What cuts a string short halts the machine or may be passed over. -/
theorem decode_failure (h : image.WellFormed) (rules : Rules) (limit : Int) (address : UInt32)
    {error : Error} (he : (decode image rules limit address).failure = some error) :
    error.operational ∨ error.recoverable := by
  have hraises := (obeys_write h rules limit address).raises #[] trivial
  unfold decode at he
  rcases hp : (write image rules limit address).perform #[] with ⟨e | _, text⟩
  · rw [hp] at he hraises
    cases he
    exact hraises error rfl
  · rw [hp] at he
    cases he

end Text

/-! ## Objects -/

namespace Object

/-- The offset of an entry in a table that counts from 1 does not wrap around. -/
theorem toNat_index_mul {number : UInt16} (hpos : 0 < number.toNat) {width : UInt32}
    (hwidth : width.toNat ≤ 0x10000) :
    ((number - 1).toUInt32 * width).toNat = (number.toNat - 1) * width.toNat := by
  have hnumber := number.toNat_lt
  have hone : (1 : UInt16) ≤ number := UInt16.le_iff_toNat_le.mpr hpos
  have hindex : (number - 1).toUInt32.toNat = number.toNat - 1 := by
    rw [UInt16.toNat_toUInt32, UInt16.toNat_sub_of_le _ _ hone]
    rfl
  rw [UInt32.toNat_mul, hindex]
  apply Nat.mod_eq_of_lt
  calc (number.toNat - 1) * width.toNat
    _ ≤ (number.toNat - 1) * 0x10000 := Nat.mul_le_mul_left _ hwidth
    _ < 2 ^ 32 := by omega

/-- An object with an entry has a number from 1 to 255, and addresses of entries do not wrap around. -/
theorem toNat_entryAddress (h : image.WellFormed) {object : UInt16} {entry : UInt32}
    (he : entryAddress image object = .ok entry) :
    (0 < object.toNat ∧ object.toNat ≤ 255) ∧
      entry.toNat = image.header.objects.toNat + 62 + (object.toNat - 1) * 9 := by
  unfold entryAddress at he
  split at he
  · cases he
  · rename_i hobject
    cases he
    rw [not_or, UInt16.not_lt] at hobject
    have hlow : object.toNat ≤ 255 := UInt16.le_iff_toNat_le.mp hobject.1
    have hpos : 0 < object.toNat :=
      Nat.pos_of_ne_zero fun h0 => hobject.2 (UInt16.toNat_inj.mp h0)
    have hmul : ((object - 1).toUInt32 * entrySize).toNat = (object.toNat - 1) * 9 :=
      toNat_index_mul hpos (by decide)
    have hobjects := h.objects_lt
    have hdefaults : (image.header.objects + defaultsSize).toNat = image.header.objects.toNat + 62 :=
      toNat_add_of_lt (by change image.header.objects.toNat + 62 < 0x100000000; omega)
    refine ⟨⟨hpos, hlow⟩, ?_⟩
    rw [toNat_add_of_lt (by omega), hdefaults, hmul]

theorem entryAddress_guarded (image : Image) (object : UInt16) : Guarded (entryAddress image object) := by
  unfold entryAddress
  split
  · exact .error rfl
  · exact .ok _

theorem entryByte_guarded (h : image.WellFormed) (object : UInt16) (offset : UInt32) :
    Guarded (entryByte image object offset) :=
  .bind (entryAddress_guarded image object) fun _ _ =>
    .bind (Image.readByte_guarded h _) fun _ _ => .pure _

theorem isInside_guarded (h : image.WellFormed) (object container : UInt16) :
    Guarded (isInside image object container) :=
  .bind (entryByte_guarded h object 4) fun _ _ => .pure _

theorem hasAttribute_guarded (h : image.WellFormed) (object number : UInt16) :
    Guarded (hasAttribute image object number) := by
  unfold hasAttribute
  split
  · exact .error rfl
  · refine .bind (entryAddress_guarded image object) ?_
    intro entry hentry
    have hobjects := h.objects_lt
    obtain ⟨⟨-, hobject⟩, hplace⟩ := toNat_entryAddress h hentry
    exact .bind (Image.readLong_guarded h (by omega)) fun _ _ => .pure _

theorem propertyTable_guarded (h : image.WellFormed) (object : UInt16) :
    Guarded (propertyTable image object) :=
  .bind (entryAddress_guarded image object) fun _ _ =>
    .bind (Image.readWord_guarded h _) fun _ _ => .pure _

theorem firstProperty_guarded (h : image.WellFormed) (object : UInt16) :
    Guarded (firstProperty image object) :=
  .bind (propertyTable_guarded h object) fun _ _ =>
    .bind (Image.readByte_guarded h _) fun _ _ => .pure _

theorem findFrom_guarded (h : image.WellFormed) (number : UInt16) (passed : List UInt32)
    (address : UInt32) : Guarded (findFrom image number passed address) := by
  fun_induction findFrom image number passed address with
  | case1 passed address error hread => exact .error (Image.readByte_guarded h address error hread)
  | case2 => exact .ok _
  | case3 => exact .ok _
  | case4 passed address size hread hbelow hother hup ih => exact ih
  | case5 => exact .ok _
  | case6 passed address size hread hbelow hother hlast hnew ih => exact ih

theorem property_guarded (h : image.WellFormed) (object number : UInt16) :
    Guarded (property image object number) :=
  .bind (firstProperty_guarded h object) fun _ _ => findFrom_guarded h number [] _

theorem propertyAddress_guarded (h : image.WellFormed) (object number : UInt16) :
    Guarded (propertyAddress image object number) :=
  .bind (property_guarded h object number) fun _ _ => .pure _

theorem nextProperty_guarded (h : image.WellFormed) (object number : UInt16) :
    Guarded (nextProperty image object number) := by
  unfold nextProperty
  split
  · refine .bind (firstProperty_guarded h object) ?_
    intro _ _
    exact .bind (Image.readByte_guarded h _) fun _ _ => .pure _
  · refine .bind (property_guarded h object number) ?_
    intro data _
    split
    · exact .throw rfl
    · exact .bind (Image.readByte_guarded h _) fun _ _ => .pure _

theorem propertyDefault_guarded (h : image.WellFormed) (number : UInt16) :
    Guarded (propertyDefault image number) := by
  unfold propertyDefault
  split
  · exact .error rfl
  · exact Image.readWord_guarded h _

theorem propertyValue_guarded (h : image.WellFormed) (object number : UInt16) :
    Guarded (propertyValue image object number) := by
  refine .bind (property_guarded h object number) ?_
  intro data _
  split
  · exact propertyDefault_guarded h number
  · split
    · exact .bind (Image.readByte_guarded h _) fun _ _ => .pure _
    · exact Image.readWord_guarded h _

theorem propertyLength_guarded (h : image.WellFormed) (address : UInt16) :
    Guarded (propertyLength image address) := by
  unfold propertyLength
  split
  · exact .ok _
  · exact .bind (Image.readByte_guarded h _) fun _ _ => .pure _

theorem name_failure (h : image.WellFormed) (rules : Text.Rules) (limit : Int) (object : UInt16)
    {error : Error} (he : (name image rules limit object).failure = some error) :
    error.operational ∨ error.recoverable := by
  have hlocated : Guarded (do
      let table ← propertyTable image object
      return (table, ← image.readByte table)) :=
    .bind (propertyTable_guarded h object) fun _ _ =>
      .bind (Image.readByte_guarded h _) fun _ _ => .pure _
  unfold name at he
  dsimp only at he
  split at he
  · rename_i e heq
    cases he
    exact .inl (hlocated error heq)
  · split at he
    · cases he
    · exact Text.decode_failure h rules limit _ he

end Object

/-! ## The dictionary -/

namespace Dictionary

theorem readBytes_guarded (h : image.WellFormed) (address : UInt32) (count : Nat) :
    Guarded (readBytes image address count) := by
  induction count generalizing address with
  | zero => exact .ok []
  | succ count ih =>
    exact .bind (Image.readByte_guarded h address) fun _ _ => .bind (ih _) fun _ _ => .pure _

theorem read_guarded (h : image.WellFormed) : Guarded (read image) :=
  .bind (Image.readByte_guarded h _) fun _ _ =>
    .bind (readBytes_guarded h _ _) fun _ _ =>
      .bind (Image.readByte_guarded h _) fun _ _ =>
        .bind (Image.readWord_guarded h _) fun _ _ => .pure _

/-- The dictionary's entries begin close above its header, are at most 255 bytes apart, and there are
at most 2^15 of them. -/
structure InReach (dictionary : Dictionary) : Prop where
  entries_lt : dictionary.entries.toNat < 0x20000
  entryLength_lt : dictionary.entryLength.toNat < 0x100
  count_le : dictionary.count ≤ 0x8000

theorem inReach_of_read (h : image.WellFormed) {dictionary : Dictionary}
    (hread : read image = .ok dictionary) : dictionary.InReach := by
  obtain ⟨separatorCount, -, hread⟩ := exists_of_bind_eq_ok hread
  obtain ⟨separators, -, hread⟩ := exists_of_bind_eq_ok hread
  obtain ⟨entryLength, -, hread⟩ := exists_of_bind_eq_ok hread
  obtain ⟨count, -, hread⟩ := exists_of_bind_eq_ok hread
  cases hread
  have hstart := h.dictionary_lt
  have hcount : separatorCount.toUInt32.toNat < 0x100 := by
    rw [UInt8.toNat_toUInt32]
    exact separatorCount.toNat_lt
  have h1 : (image.header.dictionary + 1).toNat = image.header.dictionary.toNat + 1 :=
    toNat_add_of_lt (by simp; omega)
  have h2 : (image.header.dictionary + 1 + separatorCount.toUInt32).toNat =
      image.header.dictionary.toNat + 1 + separatorCount.toUInt32.toNat := by
    rw [toNat_add_of_lt (by omega), h1]
  refine ⟨?_, ?_, ?_⟩
  · have h3 : (3 : UInt32).toNat = 3 := rfl
    rw [toNat_add_of_lt (by omega), h2]
    omega
  · rw [UInt8.toNat_toUInt32]
    exact entryLength.toNat_lt
  · have hlt := count.toInt16.toInt_lt
    have hge := count.toInt16.le_toInt
    change count.toInt16.toInt.natAbs ≤ 0x8000
    omega

/-- Addresses of entries do not wrap around. -/
theorem InReach.toNat_entryAddress {dictionary : Dictionary} (h : dictionary.InReach) {index : Nat}
    (hindex : index < dictionary.count) :
    (dictionary.entryAddress index).toNat =
      dictionary.entries.toNat + index * dictionary.entryLength.toNat := by
  obtain ⟨hentries, hlength, hcount⟩ := h
  have hindex32 : index.toUInt32.toNat = index := by
    rw [Nat.toUInt32, UInt32.toNat_ofNat']
    exact Nat.mod_eq_of_lt (by omega)
  have hle : index * dictionary.entryLength.toNat ≤ 0x8000 * 0x100 :=
    Nat.mul_le_mul (by omega) (by omega)
  have hmul : (index.toUInt32 * dictionary.entryLength).toNat =
      index * dictionary.entryLength.toNat := by
    rw [UInt32.toNat_mul, hindex32]
    exact Nat.mod_eq_of_lt (by omega)
  unfold entryAddress
  rw [toNat_add_of_lt (by omega), hmul]

theorem InReach.entryAddress_lt {dictionary : Dictionary} (h : dictionary.InReach) {index : Nat}
    (hindex : index < dictionary.count) : (dictionary.entryAddress index).toNat < 0x1000000 := by
  have hle : index * dictionary.entryLength.toNat ≤ 0x8000 * 0x100 :=
    Nat.mul_le_mul (Nat.le_trans (Nat.le_of_lt hindex) h.count_le) (Nat.le_of_lt h.entryLength_lt)
  have hentries := h.entries_lt
  rw [h.toNat_entryAddress hindex]
  omega

theorem readKey_guarded (h : image.WellFormed) {dictionary : Dictionary} (hd : dictionary.InReach)
    {index : Nat} (hindex : index < dictionary.count) :
    Guarded (image.readLong (dictionary.entryAddress index)) := by
  have hlt := hd.entryAddress_lt hindex
  exact Image.readLong_guarded h (by omega)

theorem scan_guarded (h : image.WellFormed) {dictionary : Dictionary} (hd : dictionary.InReach)
    (key : UInt32) (index count : Nat) (hcount : index + count ≤ dictionary.count) :
    Guarded (scan image dictionary key index count) := by
  induction count generalizing index with
  | zero => exact .ok 0
  | succ count ih =>
    refine .bind (readKey_guarded h hd (by omega)) ?_
    intro found _
    split
    · exact .pure _
    · exact ih (index + 1) (by omega)

theorem bisect_guarded (h : image.WellFormed) {dictionary : Dictionary} (hd : dictionary.InReach)
    (key : UInt32) (low high : Nat) (hhigh : high ≤ dictionary.count) :
    Guarded (bisect image dictionary key low high) := by
  fun_induction bisect image dictionary key low high with
  | case1 low high hlt address ihlow ihhigh =>
    have hmiddle : middle low high < high := by
      unfold middle
      omega
    refine .bind (readKey_guarded h hd (by omega)) ?_
    intro found _
    split
    · exact ihlow (by omega)
    · split
      · exact ihhigh hhigh
      · exact .pure _
  | case2 => exact .ok 0

theorem find_guarded (h : image.WellFormed) (text : List UInt8) : Guarded (find image text) := by
  refine .bind (read_guarded h) ?_
  intro dictionary hread
  have hd := inReach_of_read h hread
  rw [Text.encodeKey_eq, ok_bind]
  split
  · exact bisect_guarded h hd _ _ _ (Nat.le_refl _)
  · exact scan_guarded h hd _ _ _ (by omega)

theorem tokens_guarded (h : image.WellFormed) (line : List UInt8) : Guarded (tokens image line) :=
  .bind (read_guarded h) fun _ _ => .pure _

end Dictionary

/-! ## Input buffers -/

namespace InputBuffer

theorem obeys_writeBytes (address : UInt32) (bytes : List UInt8) :
    (writeBytes address bytes).Obeys Image.law := by
  induction bytes generalizing address with
  | nil => exact .pure ()
  | cons byte rest ih => exact .bind (Image.obeys_writeByte address byte) fun _ => ih _

theorem obeys_fillText (unicode : Text.Unicode) (line : List UInt8) (buffer : UInt32) :
    (fillText unicode line buffer).Obeys Image.law := by
  refine .bind (.query fun _ h => Image.readByte_guarded h buffer) ?_
  intro size
  split
  · exact .bind (.throw fun _ _ => rfl) fun _ => .bind (obeys_writeBytes _ _) fun _ => .pure _
  · exact .bind (obeys_writeBytes _ _) fun _ => .pure _

theorem obeys_writeTokens (address : UInt32) (tokens : List Token) :
    (writeTokens address tokens).Obeys Image.law := by
  induction tokens generalizing address with
  | nil => exact .pure ()
  | cons token rest ih =>
    refine .bind (.query fun _ h => Dictionary.find_guarded h token.word) ?_
    intro entry
    refine .bind (Image.obeys_writeWord address entry) ?_
    intro _
    refine .bind (Image.obeys_writeByte _ _) ?_
    intro _
    exact .bind (Image.obeys_writeByte _ _) fun _ => ih _

theorem obeys_fillParse (line : List UInt8) (buffer : UInt32) :
    (fillParse line buffer).Obeys Image.law := by
  refine .bind (.query fun _ h => Dictionary.tokens_guarded h line) ?_
  intro tokens
  refine .bind (.query fun _ h => Image.readByte_guarded h buffer) ?_
  intro capacity
  exact .bind (Image.obeys_writeByte _ _) fun _ => obeys_writeTokens _ _

theorem obeys_fill (unicode : Text.Unicode) (line : List UInt8) (text parse : UInt32) :
    (fill unicode line text parse).Obeys Image.law := by
  refine .bind (obeys_fillText unicode line text) ?_
  intro stored
  split
  · exact .pure ()
  · exact obeys_fillParse stored parse

end InputBuffer

end StoryMachine
