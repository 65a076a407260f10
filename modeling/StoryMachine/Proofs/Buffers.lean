import StoryMachine.Proofs.Lookup
import StoryMachine.Proofs.Tokens
import StoryMachine.Proofs.Writing

/-!
# Buffers filled

* `Dictionary.Covers dictionary start` : the places of a dictionary; `Dictionary.Kept` : they hold in one image what
  they hold in another, so that words are found at the same addresses (`Kept.find_eq`);
* `splits_of_tokens` : the words that are given for a line are the words of it;
* `InputBuffer.puts_of_fillText`, `holdsAt_of_fillParse` : what is stored if nothing fails;
* `InputBuffer.fillText_unchanged`, `fillParse_unchanged` : what is left alone even if something fails;
* `InputBuffer.fill_buffers` : **a line of input fills both buffers, and never overruns them.**
-/

namespace StoryMachine

/-! ## Dictionaries left alone -/

namespace Dictionary

/-- The places of the dictionary that begins at an address: its heading, and its entries, each of which has at
least the four bytes of its key. -/
def Covers (dictionary : Dictionary) (start : UInt32) (i : Nat) : Prop :=
  (start.toNat ≤ i ∧ i < dictionary.entries.toNat) ∨
    ∃ index < dictionary.count, (dictionary.entryAddress index).toNat ≤ i ∧
      i < (dictionary.entryAddress index).toNat + max 4 dictionary.entryLength.toNat

/-- The dictionary that was read from an image stands in another one of the same story. -/
structure Kept (dictionary : Dictionary) (image after : Image) : Prop where
  good : image.WellFormed
  read : read image = .ok dictionary
  sameStory : image.SameStory after
  get : ∀ i, dictionary.Covers image.header.dictionary i → after.bytes[i]? = image.bytes[i]?

namespace Kept

variable {dictionary : Dictionary} {image after later : Image}

theorem refl (hgood : image.WellFormed) (hread : Dictionary.read image = .ok dictionary) :
    dictionary.Kept image image :=
  ⟨hgood, hread, .refl image, fun _ _ => rfl⟩

theorem puts (h : dictionary.Kept image after) {place : Nat} {bytes : List UInt8}
    (hputs : after.Puts place bytes later)
    (hapart : ∀ i, dictionary.Covers image.header.dictionary i → i < place ∨ place + bytes.length ≤ i) :
    dictionary.Kept image later where
  good := h.good
  read := h.read
  sameStory := h.sameStory.trans hputs.sameStory
  get i hi := (hputs.unchanged (hapart i hi)).trans (h.get i hi)

/-- The dictionary is read from either image. -/
theorem read_eq (h : dictionary.Kept image after) : Dictionary.read after = .ok dictionary := by
  obtain ⟨heading, hholds, hdictionary⟩ := Heading.exists_of_read h.good h.read
  have hentries := heading.toNat_entries h.good.dictionary_lt
  rw [← hdictionary] at hentries
  have hhere : image.HoldsAt image.header.dictionary.toNat heading.bytes := hholds
  have hthere : after.Holds after.header.dictionary heading.bytes := by
    rw [h.sameStory.header_eq]
    exact hhere.congr fun i hle hlt => h.get i (.inl ⟨hle, by omega⟩)
  rw [heading.read_of_holds (h.sameStory.wellFormed h.good) hthere, h.sameStory.header_eq, hdictionary]

/-- So are the keys of its entries. -/
theorem readLong_eq (h : dictionary.Kept image after) {index : Nat} (hindex : index < dictionary.count) :
    after.readLong (dictionary.entryAddress index) = image.readLong (dictionary.entryAddress index) := by
  have hlt := (inReach_of_read h.good h.read).entryAddress_lt hindex
  have hcell : ∀ offset : UInt32, offset.toNat < 4 →
      after.cell (dictionary.entryAddress index + offset) =
        image.cell (dictionary.entryAddress index + offset) := by
    intro offset hoffset
    unfold Image.cell
    rw [toNat_add_of_lt (by omega), h.get _ (.inr ⟨index, hindex, by omega, by omega⟩)]
  have hzero := hcell 0 (by decide)
  rw [UInt32.add_zero] at hzero
  unfold Image.readLong Image.length
  rw [h.sameStory.size_eq, hzero, hcell 1 (by decide), hcell 2 (by decide), hcell 3 (by decide)]

theorem scan_eq (h : dictionary.Kept image after) (key : UInt32) (index count : Nat)
    (hcount : index + count ≤ dictionary.count) :
    scan after dictionary key index count = scan image dictionary key index count := by
  induction count generalizing index with
  | zero => rfl
  | succ count ih =>
    rw [scan, scan, h.readLong_eq (by omega), ih (index + 1) (by omega)]

theorem bisect_eq (h : dictionary.Kept image after) (key : UInt32) (low high : Nat)
    (hhigh : high ≤ dictionary.count) :
    bisect after dictionary key low high = bisect image dictionary key low high := by
  induction low, high using bisect.induct dictionary with
  | case1 low high hlt ihlow ihhigh =>
    have hmiddle : middle low high < high := by
      unfold middle
      omega
    rw [bisect.eq_def after, bisect.eq_def image]
    dsimp only
    rw [h.readLong_eq (by omega), ihlow (by omega), ihhigh hhigh]
  | case2 low high hge => rw [bisect, if_neg hge, bisect, if_neg hge]

/-- **Words are found in either image at the same address.** -/
theorem find_eq (h : dictionary.Kept image after) (text : List UInt8) : find after text = find image text := by
  unfold find
  rw [h.read_eq, h.read, ok_bind, ok_bind, Text.encodeKey_eq, ok_bind, ok_bind]
  rw [h.bisect_eq _ _ _ (Nat.le_refl _), h.scan_eq _ _ _ (by omega)]

theorem tokens_eq (h : dictionary.Kept image after) (line : List UInt8) :
    tokens after line = tokens image line := by
  unfold tokens
  rw [h.read_eq, h.read]

end Kept

end Dictionary

/-! ## Words of a line -/

namespace Dictionary

/-- The words that are given for a line are the words of it. -/
theorem splits_of_tokens {image : Image} {dictionary : Dictionary} {line : List UInt8} {tokens : List Token}
    (hread : read image = .ok dictionary) (h : Dictionary.tokens image line = .ok tokens) :
    Splits dictionary.separators line tokens := by
  obtain ⟨found, hfound, h⟩ := exists_of_bind_eq_ok h
  cases hread.symm.trans hfound
  cases h
  exact (splitsFrom_line _ line).splits

end Dictionary

namespace InputBuffer

open Image (Lays lays_writeByte lays_writeWord)

/-! ## Stored bytes -/

theorem lays_writeBytes (address : UInt32) (bytes : List UInt8) :
    Lays address bytes.length (writeBytes address bytes) := by
  induction bytes generalizing address with
  | nil => exact .nothing address
  | cons byte rest ih =>
    rw [List.length_cons, Nat.add_comm]
    exact (lays_writeByte address byte).bind 1 rfl rfl fun _ => ih (address + 1)

theorem lays_writeTokens (address : UInt32) (tokens : List Token) :
    Lays address (4 * tokens.length) (writeTokens address tokens) := by
  induction tokens generalizing address with
  | nil => exact .nothing address
  | cons token rest ih =>
    have hcount : 4 * (token :: rest).length = 2 + (1 + (1 + 4 * rest.length)) := by
      rw [List.length_cons]
      omega
    have hbehind : ∀ offset : UInt32, address + offset + 1 = address + (offset + 1) :=
      fun offset => UInt32.add_assoc address offset 1
    rw [hcount]
    refine .query fun entry => ?_
    refine (lays_writeWord address entry).bind 2 rfl rfl fun _ => ?_
    refine (lays_writeByte (address + 2) _).bind 1 rfl (hbehind 2) fun _ => ?_
    exact (lays_writeByte (address + 3) _).bind 1 rfl (hbehind 3) fun _ => ih (address + 4)

/-- The four bytes of a word in the parse buffer. -/
def blockBytes (entry : UInt16) (token : Token) : List UInt8 :=
  wordBytes entry ++ [token.word.length.toUInt8] ++ [(token.start + 1).toUInt8]

section
variable {image after : Image} (hgood : image.WellFormed)
include hgood

theorem puts_of_writeBytes {address : UInt32} {bytes : List UInt8}
    (h : (writeBytes address bytes).perform image = (.ok (), after)) :
    image.Puts address.toNat bytes after := by
  induction bytes generalizing address image with
  | nil =>
    cases h
    exact .refl _ _
  | cons byte rest ih =>
    obtain ⟨_, middle, hfirst, hrest⟩ := Exec.exists_of_perform_bind h
    have hbyte := Image.puts_of_writeByte (Exec.eq_ok_of_perform_change hfirst)
    have hputs := ih (hbyte.sameStory.wellFormed hgood) hrest
    rw [hbyte.toNat_add hgood rfl] at hputs
    exact hbyte.trans hputs

/-- A line that was stored, with room for the zero behind it. -/
theorem puts_of_fillText {unicode : Text.Unicode} {line stored : List UInt8} {buffer : UInt32}
    (h : (fillText unicode line buffer).perform image = (.ok stored, after)) :
    stored = (Text.lower unicode line).take ((image.bytes.getD buffer.toNat 0).toNat - 1) ∧
      stored.length < (image.bytes.getD buffer.toNat 0).toNat ∧
      image.Puts (buffer.toNat + 1) (stored ++ [0]) after := by
  obtain ⟨size, hsize, h⟩ := Exec.exists_of_perform_query_bind h
  rw [Image.getD_of_readByte hsize]
  dsimp only at h
  split at h
  · obtain ⟨_, _, hthrow, -⟩ := Exec.exists_of_perform_bind h
    cases hthrow
  · rename_i hnonzero
    obtain ⟨_, middle, hwrite, h⟩ := Exec.exists_of_perform_bind h
    cases h
    have hpos : 0 < size.toNat := Nat.pos_of_ne_zero fun h => hnonzero (UInt8.toNat_inj.mp h)
    have hputs := puts_of_writeBytes hgood hwrite
    rw [Image.toNat_behind_readByte hsize] at hputs
    refine ⟨rfl, ?_, hputs⟩
    rw [List.length_take]
    omega

/-- The block of the first word is put, and then those of the rest. -/
theorem puts_of_writeTokens_cons {address : UInt32} {token : Token} {rest : List Token}
    (h : (writeTokens address (token :: rest)).perform image = (.ok (), after)) :
    ∃ entry middle, Dictionary.find image token.word = .ok entry ∧
      image.Puts address.toNat (blockBytes entry token) middle ∧
      (writeTokens (address + 4) rest).perform middle = (.ok (), after) := by
  obtain ⟨entry, hentry, h⟩ := Exec.exists_of_perform_query_bind h
  obtain ⟨_, first, hfirst, h⟩ := Exec.exists_of_perform_bind h
  obtain ⟨_, second, hsecond, h⟩ := Exec.exists_of_perform_bind h
  obtain ⟨_, third, hthird, h⟩ := Exec.exists_of_perform_bind h
  have hword := Image.puts_of_writeWord hgood (Exec.eq_ok_of_perform_change hfirst)
  have hlength := Image.puts_of_writeByte (Exec.eq_ok_of_perform_change hsecond)
  rw [hword.toNat_add hgood rfl] at hlength
  have hboth := hword.trans hlength
  have hposition := Image.puts_of_writeByte (Exec.eq_ok_of_perform_change hthird)
  rw [hboth.toNat_add hgood rfl] at hposition
  exact ⟨entry, third, hentry, hboth.trans hposition, h⟩

/-- **Words that were stored.** Where the dictionary is not written over, each has its own block. -/
theorem holdsAt_of_writeTokens {base : Image} {dictionary : Dictionary} {address : UInt32} {tokens : List Token}
    (hkept : dictionary.Kept base image)
    (hapart : ∀ i, dictionary.Covers base.header.dictionary i →
      i < address.toNat ∨ address.toNat + 4 * tokens.length ≤ i)
    (h : (writeTokens address tokens).perform image = (.ok (), after)) {i : Nat} {token : Token}
    (htoken : tokens[i]? = some token) :
    ∃ entry, Dictionary.find base token.word = .ok entry ∧
      after.HoldsAt (address.toNat + 4 * i) (blockBytes entry token) := by
  induction tokens generalizing address image i with
  | nil => cases htoken
  | cons first rest ih =>
    obtain ⟨entry, middle, hentry, hputs, hrest⟩ := puts_of_writeTokens_cons hgood h
    have hgood' := hputs.sameStory.wellFormed hgood
    have hfour : (address + 4).toNat = address.toNat + 4 := hputs.toNat_add hgood rfl
    rw [List.length_cons] at hapart
    cases i with
    | zero =>
      cases htoken
      rw [hkept.find_eq] at hentry
      exact ⟨entry, hentry,
        (lays_writeTokens (address + 4) rest).holdsAt hgood' hrest hputs.holdsAt (Nat.le_of_eq hfour.symm)⟩
    | succ i =>
      -- the block lies apart from the dictionary, so the other words are looked up in the same one
      have hkept' := hkept.puts hputs fun j hj => by
        have := hapart j hj
        change _ ∨ address.toNat + 4 ≤ j
        omega
      have hblock := ih hgood' hkept' (fun j hj => by have := hapart j hj; omega) hrest htoken
      rw [hfour, Nat.add_assoc, Nat.add_comm 4, ← Nat.mul_succ] at hblock
      exact hblock

end

/-! ## Nothing else is changed -/

section
variable {image : Image} (hgood : image.WellFormed) {i : Nat}
include hgood

theorem fillText_unchanged (unicode : Text.Unicode) (line : List UInt8) (buffer : UInt32)
    (hi : i < buffer.toNat + 1 ∨ buffer.toNat + (image.bytes.getD buffer.toNat 0).toNat < i) :
    ((fillText unicode line buffer).perform image).2.bytes[i]? = image.bytes[i]? := by
  unfold fillText
  rw [Exec.perform_bind, Exec.perform_query]
  cases hsize : image.readByte buffer with
  | error error => rfl
  | ok size =>
    dsimp only
    split
    · rfl
    · rename_i hnonzero
      rw [Image.getD_of_readByte hsize] at hi
      have hpos : 0 < size.toNat := Nat.pos_of_ne_zero fun h => hnonzero (UInt8.toNat_inj.mp h)
      rw [Exec.perform_bind_pure]
      refine (lays_writeBytes _ _).unchanged hgood ?_
      rw [Image.toNat_behind_readByte hsize, List.length_append, List.length_take, List.length_singleton]
      omega

theorem fillParse_unchanged (line : List UInt8) (buffer : UInt32)
    (hi : i < buffer.toNat + 1 ∨ buffer.toNat + 1 + 4 * (image.bytes.getD buffer.toNat 0).toNat < i) :
    ((fillParse line buffer).perform image).2.bytes[i]? = image.bytes[i]? := by
  unfold fillParse
  rw [Exec.perform_bind, Exec.perform_query]
  cases Dictionary.tokens image line with
  | error error => rfl
  | ok tokens =>
    dsimp only
    rw [Exec.perform_bind, Exec.perform_query]
    cases hcapacity : image.readByte buffer with
    | error error => rfl
    | ok capacity =>
      rw [Image.getD_of_readByte hcapacity] at hi
      have hlays := (lays_writeByte (buffer + 1) (tokens.take capacity.toNat).length.toUInt8).bind 1 rfl
        (UInt32.add_assoc buffer 1 1) fun _ => lays_writeTokens (buffer + 2) (tokens.take capacity.toNat)
      refine hlays.unchanged hgood ?_
      rw [Image.toNat_behind_readByte hcapacity, List.length_take]
      omega

end

/-! ## Both buffers -/

/-- The text buffer, the parse buffer and the dictionary at an address lie apart. -/
structure Apart (dictionary : Dictionary) (start : UInt32) (text size parse capacity : Nat) : Prop where
  buffers : text + size < parse ∨ parse + 1 + 4 * capacity < text
  text : ∀ i, dictionary.Covers start i → i < text ∨ text + size < i
  parse : ∀ i, dictionary.Covers start i → i < parse ∨ parse + 1 + 4 * capacity < i

/-- The block at a place describes a word: the address of its entry, its length, and its position in the text
buffer. Neither of the last two is cut off. -/
def Describes (image after : Image) (text place : Nat) (token : Token) : Prop :=
  ∃ entry length position, after.HoldsAt place (wordBytes entry ++ [length, position]) ∧
    Dictionary.find image token.word = .ok entry ∧ Dictionary.find after token.word = .ok entry ∧
    length.toNat = token.word.length ∧ position.toNat = token.start + 1 ∧
    after.HoldsAt (text + position.toNat) token.word

/-- The parse buffer holds the number of the words of a line, or of those that it takes, and describes each. -/
def Parsed (image after : Image) (line : List UInt8) (text parse capacity : Nat) : Prop :=
  ∃ dictionary tokens, Dictionary.read image = .ok dictionary ∧ Dictionary.tokens image line = .ok tokens ∧
    Dictionary.Splits dictionary.separators line tokens ∧
    (∃ count : UInt8, count.toNat = min tokens.length capacity ∧ after.HoldsAt (parse + 1) [count]) ∧
    ∀ i token, (tokens.take capacity)[i]? = some token →
      Describes image after text (parse + 2 + 4 * i) token

section
variable {image middle after : Image} {dictionary : Dictionary}

/-- Words that were stored in the parse buffer, apart from the dictionary. -/
theorem holdsAt_of_fillParse {line : List UInt8} {buffer : UInt32} (hgood : middle.WellFormed)
    (hread : Dictionary.read middle = .ok dictionary)
    (hapart : ∀ i, dictionary.Covers middle.header.dictionary i → i < buffer.toNat ∨
      buffer.toNat + 1 + 4 * (middle.bytes.getD buffer.toNat 0).toNat < i)
    (h : (fillParse line buffer).perform middle = (.ok (), after)) :
    ∃ tokens, Dictionary.tokens middle line = .ok tokens ∧
      after.HoldsAt (buffer.toNat + 1)
        [(tokens.take (middle.bytes.getD buffer.toNat 0).toNat).length.toUInt8] ∧
      ∀ i token, (tokens.take (middle.bytes.getD buffer.toNat 0).toNat)[i]? = some token →
        ∃ entry, Dictionary.find middle token.word = .ok entry ∧
          after.HoldsAt (buffer.toNat + 2 + 4 * i) (blockBytes entry token) := by
  obtain ⟨tokens, htokens, h⟩ := Exec.exists_of_perform_query_bind h
  obtain ⟨capacity, hcapacity, h⟩ := Exec.exists_of_perform_query_bind h
  obtain ⟨_, counted, hcount, h⟩ := Exec.exists_of_perform_bind h
  rw [Image.getD_of_readByte hcapacity] at hapart ⊢
  have hputs := Image.puts_of_writeByte (Exec.eq_ok_of_perform_change hcount)
  have hgood' := hputs.sameStory.wellFormed hgood
  have hone := Image.toNat_behind_readByte hcapacity
  have htwo : (buffer + 2).toNat = buffer.toNat + 2 := by
    have hadd : (buffer + 1 + 1).toNat = (buffer + 1).toNat + 1 := hputs.toNat_add hgood rfl
    rwa [UInt32.add_assoc, hone] at hadd
  have hstored : (tokens.take capacity.toNat).length ≤ capacity.toNat := List.length_take_le _ _
  have hkept := (Dictionary.Kept.refl hgood hread).puts hputs fun i hi => by
    have := hapart i hi
    rw [hone, List.length_singleton]
    omega
  refine ⟨tokens, htokens, ?_, fun i token htoken => ?_⟩
  · have hholds := hputs.holdsAt
    rw [hone] at hholds
    exact (lays_writeTokens (buffer + 2) _).holdsAt hgood' h hholds (Nat.le_of_eq htwo.symm)
  · have hblock := holdsAt_of_writeTokens hgood' hkept (fun i hi => by have := hapart i hi; omega) h htoken
    rwa [htwo] at hblock

/-- The block of a word describes it, as the line is too short for its length or its position to be cut off. -/
theorem describes_of_holdsAt {stored : List UInt8} {text place : Nat} {token : Token} {entry : UInt16}
    (hbefore : dictionary.Kept middle image) (hafter : dictionary.Kept middle after)
    (htext : after.HoldsAt (text + 1) (stored ++ [0])) (hlength : stored.length < 255)
    (hstands : token.Stands stored) (hentry : Dictionary.find middle token.word = .ok entry)
    (hblock : after.HoldsAt place (blockBytes entry token)) : Describes image after text place token := by
  obtain ⟨before, behind, hline, hstart⟩ := hstands
  have hbound : token.start + token.word.length ≤ stored.length := by
    rw [hline, hstart, List.length_append, List.length_append]
    omega
  have hposition : (token.start + 1).toUInt8.toNat = token.start + 1 :=
    UInt8.toNat_ofNat_of_lt' (show token.start + 1 < 256 by omega)
  have hword : token.word.length.toUInt8.toNat = token.word.length :=
    UInt8.toNat_ofNat_of_lt' (show token.word.length < 256 by omega)
  refine ⟨entry, _, _, hblock, ?_, ?_, hword, hposition, ?_⟩
  · rw [hbefore.find_eq, hentry]
  · rw [hafter.find_eq, hentry]
  · rw [hposition, hstart, ← Nat.add_assoc, Nat.add_right_comm]
    rw [hline, List.append_assoc, List.append_assoc] at htext
    exact htext.right.left

/-- The count of the words that are described fits into its byte, as it is at most another byte. -/
theorem toNat_length_take (tokens : List Token) (capacity : UInt8) :
    (tokens.take capacity.toNat).length.toUInt8.toNat = min tokens.length capacity.toNat := by
  have hcount : (tokens.take capacity.toNat).length < 256 :=
    Nat.lt_of_le_of_lt (List.length_take_le _ _) capacity.toNat_lt
  rw [Nat.min_comm, ← List.length_take]
  exact UInt8.toNat_ofNat_of_lt' hcount

theorem sameStory_of_fillParse {line : List UInt8} {buffer : UInt32} (hgood : middle.WellFormed)
    (h : (fillParse line buffer).perform middle = (.ok (), after)) : middle.SameStory after := by
  have hchanges := (obeys_fillParse line buffer).changes middle hgood
  rw [h] at hchanges
  exact .of_writes hchanges

/-- A line that stands in the text buffer is parsed, where the buffers and the dictionary lie apart. -/
theorem parsed_of_fillParse {stored : List UInt8} {text size : Nat} {parse : UInt32} (hgood : image.WellFormed)
    (hputs : image.Puts (text + 1) (stored ++ [0]) middle) (hlength : stored.length < size) (hsize : size < 256)
    (hapart : ∀ dictionary, Dictionary.read middle = .ok dictionary →
      Apart dictionary image.header.dictionary text size parse.toNat
        (middle.bytes.getD parse.toNat 0).toNat)
    (h : (fillParse stored parse).perform middle = (.ok (), after)) :
    after.HoldsAt (text + 1) (stored ++ [0]) ∧
      Parsed image after stored text parse.toNat (middle.bytes.getD parse.toNat 0).toNat := by
  have hgood' := hputs.sameStory.wellFormed hgood
  obtain ⟨dictionary, hread⟩ : ∃ dictionary, Dictionary.read middle = .ok dictionary := by
    obtain ⟨_, htokens, -⟩ := Exec.exists_of_perform_query_bind h
    obtain ⟨dictionary, hread, -⟩ := exists_of_bind_eq_ok htokens
    exact ⟨dictionary, hread⟩
  have hapart := hapart dictionary hread
  rw [← hputs.sameStory.header_eq] at hapart
  have hframe := fun i => fillParse_unchanged hgood' stored parse (i := i)
  have hsame := sameStory_of_fillParse hgood' h
  rw [h] at hframe
  -- lookups while the words are stored see the dictionary that stood there before and stands there afterwards
  have hbefore : dictionary.Kept middle image := by
    refine ⟨hgood', hread, hputs.sameStory.symm, fun i hi => (hputs.unchanged ?_).symm⟩
    have := hapart.text i hi
    rw [List.length_append, List.length_singleton]
    omega
  have hafter : dictionary.Kept middle after := by
    refine ⟨hgood', hread, hsame, fun i hi => hframe i ?_⟩
    have := hapart.parse i hi
    omega
  have htext : after.HoldsAt (text + 1) (stored ++ [0]) := by
    refine hputs.holdsAt.congr fun i hle hlt => hframe i ?_
    have := hapart.buffers
    rw [List.length_append, List.length_singleton] at hlt
    omega
  obtain ⟨tokens, htokens, hcount, hblocks⟩ := holdsAt_of_fillParse hgood' hread hapart.parse h
  refine ⟨htext, dictionary, tokens, hbefore.read_eq, ?_, Dictionary.splits_of_tokens hread htokens,
    ⟨_, toNat_length_take tokens _, hcount⟩, fun i token htoken => ?_⟩
  · rw [hbefore.tokens_eq, htokens]
  · obtain ⟨entry, hentry, hblock⟩ := hblocks i token htoken
    have hstands := (Dictionary.splits_of_tokens hread htokens).stands token
      (List.mem_of_mem_take (List.mem_of_getElem? htoken))
    exact describes_of_holdsAt hbefore hafter htext (by omega) hstands hentry hblock

end

theorem fill_unchanged {image : Image} (hgood : image.WellFormed) (unicode : Text.Unicode) (line : List UInt8)
    (text parse : UInt32) {i : Nat}
    (htext : i < text.toNat + 1 ∨ text.toNat + (image.bytes.getD text.toNat 0).toNat < i)
    (hparse : parse ≠ 0 → i < parse.toNat + 1 ∨ parse.toNat + 1 +
      4 * (((fillText unicode line text).perform image).2.bytes.getD parse.toNat 0).toNat < i) :
    ((fill unicode line text parse).perform image).2.bytes[i]? = image.bytes[i]? := by
  have hfirst := fillText_unchanged hgood unicode line text htext
  have hgood' := (obeys_fillText unicode line text).good hgood
  unfold fill
  rcases hperform : (fillText unicode line text).perform image with ⟨error | stored, middle⟩
  · rw [Exec.perform_bind_error hperform]
    rwa [hperform] at hfirst
  · rw [hperform] at hfirst hparse hgood'
    rw [Exec.perform_bind_ok hperform]
    split
    · exact hfirst
    · rename_i hnonzero
      exact (fillParse_unchanged hgood' stored parse (hparse hnonzero)).trans hfirst

/-- **A line of input fills both buffers, and never overruns them.** Whether it is stored or not, nothing changes
but what lies behind the first byte of a buffer, and not farther than this byte allows: that of the text buffer as
it was at first, that of the parse buffer as it is once the text is stored. If the line is stored, and both buffers
and the dictionary that is read then lie apart, the text buffer holds the line in lower case, cut to what fits and
ended by a zero, and the parse buffer describes its words. -/
theorem fill_buffers {file : Array UInt8} {loaded image : Image} (hload : Image.load file = .ok loaded)
    (hsame : loaded.SameStory image) (unicode : Text.Unicode) (line : List UInt8) (text parse : UInt32) :
    let size := (image.bytes.getD text.toNat 0).toNat
    let middle := ((fillText unicode line text).perform image).2
    let capacity := (middle.bytes.getD parse.toNat 0).toNat
    let after := ((fill unicode line text parse).perform image).2
    let stored := (Text.lower unicode line).take (size - 1)
    (∀ i, (i < text.toNat + 1 ∨ text.toNat + size < i) →
      (parse ≠ 0 → i < parse.toNat + 1 ∨ parse.toNat + 1 + 4 * capacity < i) →
      after.bytes[i]? = image.bytes[i]?) ∧
    (((fill unicode line text parse).perform image).1 = .ok () →
      (parse ≠ 0 → ∀ dictionary, Dictionary.read middle = .ok dictionary →
        Apart dictionary image.header.dictionary text.toNat size parse.toNat capacity) →
      after.HoldsAt (text.toNat + 1) (stored ++ [0]) ∧
        (parse ≠ 0 → Parsed image after stored text.toNat parse.toNat capacity)) := by
  have hgood := hsame.wellFormed (Image.load_wellFormed hload)
  intro size middle capacity after stored
  refine ⟨fun i htext hparse => fill_unchanged hgood unicode line text parse htext hparse, fun hok hapart => ?_⟩
  have hfill : (fill unicode line text parse).perform image = (.ok (), after) := Prod.ext hok rfl
  obtain ⟨kept, filled, hperform, hrest⟩ := Exec.exists_of_perform_bind hfill
  obtain ⟨rfl, hlength, hputs⟩ := puts_of_fillText hgood hperform
  have hmiddle : filled = middle := (congrArg Prod.snd hperform).symm
  rw [hmiddle] at hputs hrest
  split at hrest
  · rename_i hzero
    have hafter : middle = after := congrArg Prod.snd hrest
    rw [hafter] at hputs
    exact ⟨hputs.holdsAt, fun hne => absurd hzero hne⟩
  · rename_i hne
    have hlt : size < 256 := (image.bytes.getD text.toNat 0).toNat_lt
    obtain ⟨htext, hparsed⟩ := parsed_of_fillParse hgood hputs hlength hlt (hapart hne) hrest
    exact ⟨htext, fun _ => hparsed⟩

section
open Dictionary (wordLexicon)

/-- A story with a text buffer for ten letters at 0x40, a parse buffer for three words at 0x50, and a dictionary of
the words "ab" and "go". -/
def bufferStory : Array UInt8 :=
  #[0x03, 0x00, 0x00, 0x00, 0x00, 0x00, 0x00, 0x00, 0x00, 0x60, 0x00, 0x00, 0x00, 0x00, 0x00, 0x70] ++
    Array.replicate 0x30 0x00 ++ #[0x0B] ++ Array.replicate 0x0F 0x00 ++ #[0x03] ++ Array.replicate 0x0F 0x00 ++
    #[0x01, 0x2C, 0x05, 0x00, 0x02, 0x18, 0xE5, 0x94, 0xA5, 0x00, 0x32, 0x85, 0x94, 0xA5, 0x00, 0x00]

def bufferImage : Image :=
  .whole bufferStory

theorem load_bufferStory : Image.load bufferStory = .ok bufferImage :=
  Image.load_eq_whole (by decide) (by decide) (by decide) (by decide) (by decide) (by decide)

/-- A line that is too long for the text buffer, and has too many words for the parse buffer. -/
def longLine : List UInt8 :=
  Text.ascii "Go, AB north"

theorem read_longLine :
    Dictionary.read ((fillText .fifteen longLine 0x40).perform bufferImage).2 =
      .ok (wordLexicon.toDictionary 0x60) := by
  decide +kernel

theorem apart_longLine :
    Apart (wordLexicon.toDictionary 0x60) bufferImage.header.dictionary 0x40 11 0x50 3 := by
  have hstart : bufferImage.header.dictionary = 0x60 := by decide +kernel
  rw [hstart]
  have hcovers : ∀ i, (wordLexicon.toDictionary 0x60).Covers 0x60 i → 0x60 ≤ i := by
    rintro i (⟨hle, -⟩ | ⟨index, hindex, hle, -⟩)
    · exact hle
    · have hentry : ∀ index < 2, 0x60 ≤ ((wordLexicon.toDictionary 0x60).entryAddress index).toNat := by
        decide +kernel
      exact Nat.le_trans (hentry index hindex) hle
  refine ⟨.inl (by decide), fun i hi => ?_, fun i hi => ?_⟩
  · have := hcovers i hi
    omega
  · have := hcovers i hi
    omega

/-- Three of the four words are described: one that the dictionary has, a comma, and another one that it has. -/
theorem fill_buffers_sample :
    let after := ((fill .fifteen longLine 0x40 0x50).perform bufferImage).2
    after.HoldsAt 0x41 (Text.ascii "go, ab nor" ++ [0]) ∧
      Parsed bufferImage after (Text.ascii "go, ab nor") 0x40 0x50 3 ∧
      after.HoldsAt 0x51 [3, 0x00, 0x6A, 2, 1, 0x00, 0x00, 1, 3, 0x00, 0x65, 2, 5] ∧
      after.bytes[0x50]? = some 3 := by
  have hsize : (bufferImage.bytes.getD (0x40 : UInt32).toNat 0).toNat = 11 := by decide +kernel
  have hcapacity :
      (((fillText .fifteen longLine 0x40).perform bufferImage).2.bytes.getD (0x50 : UInt32).toNat 0).toNat = 3 := by
    decide +kernel
  have hstored : (Text.lower .fifteen longLine).take 10 = Text.ascii "go, ab nor" := by decide +kernel
  have hok : ((fill .fifteen longLine 0x40 0x50).perform bufferImage).1 = .ok () := by decide +kernel
  have hblocks : ((fill .fifteen longLine 0x40 0x50).perform bufferImage).2.HoldsAt 0x51
      [3, 0x00, 0x6A, 2, 1, 0x00, 0x00, 1, 3, 0x00, 0x65, 2, 5] := by
    unfold Image.HoldsAt
    decide +kernel
  have h := fill_buffers load_bufferStory (.refl _) .fifteen longLine 0x40 0x50
  dsimp only at h
  rw [hsize, hcapacity, hstored] at h
  obtain ⟨hframe, hfilled⟩ := h
  obtain ⟨htext, hparsed⟩ := hfilled hok fun _ dictionary hread => by
    cases read_longLine.symm.trans hread
    exact apart_longLine
  exact ⟨htext, hparsed (by decide), hblocks,
    (hframe 0x50 (.inr (by decide)) fun _ => .inl (by decide)).trans (by decide +kernel)⟩

end

end InputBuffer

end StoryMachine
