import Mathlib.Data.List.Lex
import Mathlib.Data.Nat.Digits.Lemmas
import StoryMachine.Proofs.Encoding
import StoryMachine.Proofs.KeyBuffer

/-!
# Words and their keys

* `Alphabet.letters`, `spelling` : the letters of an alphabet, and the codes of a character; `leadingCodes` : the
  first six codes of a word, with 5s without end behind it. These are the codes of its key (`map_keyCodes`);
* `number` : codes as digits in base 32, ordered as the codes are (`number_lt_iff`); `toNat_key` : a key is this
  number with a bit set between its halves;
* `key_order` : **keys are ordered as the codes of their words**;
* `cost`, `Longest` : how many codes a character takes, and the longest beginning of a word that a number of codes
  suffices for, which is found one character after the other (`affordable`);
* `codesAt_key`, `interpret_take` : the codes of a key in memory, and what they write: a character that was cut off
  writes nothing (`interpret_stump`);
* `decode_key` : **a key is read back as its word, up to six codes.**
-/

namespace StoryMachine.Text

/-! ## The codes of a word -/

/-- The letters of an alphabet. The first place of the symbols holds none. -/
def Alphabet.letters : Alphabet → List UInt8
  | .symbols => Alphabet.symbols.row.tail
  | alphabet => alphabet.row

/-- The codes of a character, as numbers: the place of a letter in its alphabet, behind the shift to it, or the
two halves of what is a letter of none. -/
def spelling (character : UInt8) : List Nat :=
  if character ∈ Alphabet.lower.letters then [Alphabet.lower.row.idxOf character + 6]
  else if character ∈ Alphabet.upper.letters then [4, Alphabet.upper.row.idxOf character + 6]
  else if character ∈ Alphabet.symbols.letters then [5, Alphabet.symbols.row.idxOf character + 6]
  else [5, 6, character.toNat / 32, character.toNat % 32]

/-- The code at an index of a word, where 5s without end stand behind the codes of its characters. -/
def codeAt (word : List UInt8) (index : Nat) : Nat :=
  (word.flatMap spelling).getD index 5

/-- The first six codes of a word. -/
def leadingCodes (word : List UInt8) : List Nat :=
  (List.range 6).map (codeAt word)

theorem mem_letters_iff {alphabet : Alphabet} {letter : UInt8} {index : Nat}
    (h : alphabet.row.idxOf? letter = some index) :
    letter ∈ alphabet.letters ↔ ¬ (alphabet = .symbols ∧ index = 0) := by
  obtain ⟨hlt, hletter, -⟩ := List.idxOf?_eq_some_iff.mp h
  have hmem : letter ∈ alphabet.row := hletter ▸ List.getElem_mem hlt
  cases alphabet with
  | lower => simpa [Alphabet.letters] using hmem
  | upper => simpa [Alphabet.letters] using hmem
  | symbols =>
    rcases index with _ | index
    · have hspace : letter = space := hletter.symm
      rw [hspace]
      decide
    · have htail : Alphabet.symbols.row.tail[index]? = some letter := by
        rw [List.getElem?_tail, List.getElem?_eq_getElem hlt]
        exact congrArg some hletter
      simpa [Alphabet.letters] using List.mem_of_getElem? htail

theorem code?_eq (alphabet : Alphabet) (letter : UInt8) :
    alphabet.code? letter =
      if letter ∈ alphabet.letters then some (alphabet.row.idxOf letter + 6).toUInt8 else none := by
  unfold Alphabet.code?
  cases hindex : alphabet.row.idxOf? letter with
  | none =>
    have hrow := List.idxOf?_eq_none_iff.mp hindex
    have hnot : letter ∉ alphabet.letters := by
      cases alphabet with
      | lower => exact hrow
      | upper => exact hrow
      | symbols => exact fun hmem => hrow (List.mem_of_mem_tail hmem)
    rw [if_neg hnot]
  | some index =>
    have hplace : alphabet.row.idxOf letter = index := by
      rw [List.idxOf_eq_getD_idxOf?, hindex, Option.getD_some]
    simp only [hplace, mem_letters_iff hindex]
    rcases index with _ | index
    · by_cases hsymbols : alphabet = .symbols
      · simp [hsymbols]
      · simp [hsymbols]
    · simp

theorem map_codesOf (character : UInt8) : (codesOf character).map UInt8.toNat = spelling character := by
  have hcode : ∀ alphabet : Alphabet,
      (alphabet.row.idxOf character + 6).toUInt8.toNat = alphabet.row.idxOf character + 6 := by
    intro alphabet
    have hle : alphabet.row.idxOf character ≤ alphabet.row.length := List.idxOf_le_length
    have hrow := alphabet.length_row
    exact UInt8.toNat_ofNat_of_lt' (show _ < 256 by omega)
  unfold codesOf spelling
  simp only [code?_eq]
  by_cases hlower : character ∈ Alphabet.lower.letters
  · simp only [hlower, if_true, List.map_cons, List.map_nil, hcode]
  · by_cases hupper : character ∈ Alphabet.upper.letters
    · simp only [hlower, hupper, if_true, if_false, List.map_cons, List.map_nil, hcode]
      rfl
    · by_cases hsymbol : character ∈ Alphabet.symbols.letters
      · simp only [hlower, hupper, hsymbol, if_true, if_false, List.map_cons, List.map_nil, hcode]
        rfl
      · have hhigh : (character >>> 5).toNat = character.toNat / 32 := by
          rw [UInt8.toNat_shiftRight, Nat.shiftRight_eq_div_pow]
          rfl
        have hlow : (character &&& 0x1F).toNat = character.toNat % 32 := by
          rw [UInt8.toNat_and]
          exact Nat.and_two_pow_sub_one_eq_mod character.toNat 5
        simp only [hlower, hupper, hsymbol, if_false, List.map_cons, List.map_nil, hhigh, hlow]
        rfl

/-- The first codes of a filled list are its own, and the filling where it has none. -/
theorem take_fill (codes : List Nat) (fill count : Nat) :
    (codes ++ List.replicate count fill).take count = (List.range count).map (codes.getD · fill) := by
  apply List.ext_getElem
  · simp
  · intro i hleft hright
    simp only [List.getElem_take, List.getElem_map, List.getElem_range, List.getD_eq_getElem?_getD]
    by_cases hinside : i < codes.length
    · rw [List.getElem_append_left hinside, List.getElem?_eq_getElem hinside, Option.getD_some]
    · rw [List.getElem_append_right (by omega), List.getElem_replicate, List.getElem?_eq_none (by omega),
        Option.getD_none]

/-- The codes of a key are the first six of its word. -/
theorem map_keyCodes (word : List UInt8) : (keyCodes word).map UInt8.toNat = leadingCodes word := by
  unfold keyCodes
  rw [List.map_take, List.map_append, List.map_flatMap, List.map_replicate]
  simp only [map_codesOf]
  exact take_fill _ 5 6

theorem lt_32_of_mem_keyCodes {word : List UInt8} {code : UInt8} (h : code ∈ keyCodes word) :
    code.toNat < 32 := by
  rcases List.mem_append.mp (List.mem_of_mem_take h) with hword | hfill
  · obtain ⟨character, -, hcode⟩ := List.mem_flatMap.mp hword
    exact lt_32_of_mem_codesOf hcode
  · rw [List.eq_of_mem_replicate hfill]
    decide

theorem length_leadingCodes (word : List UInt8) : (leadingCodes word).length = 6 := by
  simp [leadingCodes]

theorem lt_32_of_mem_leadingCodes (word : List UInt8) : ∀ code ∈ leadingCodes word, code < 32 := by
  intro code hcode
  rw [← map_keyCodes] at hcode
  obtain ⟨small, hsmall, rfl⟩ := List.mem_map.mp hcode
  exact lt_32_of_mem_keyCodes hsmall

/-- Codes behind the sixth do not count. -/
theorem leadingCodes_append {word : List UInt8} (hfull : 6 ≤ (word.flatMap spelling).length)
    (more : List UInt8) : leadingCodes (word ++ more) = leadingCodes word := by
  apply List.map_congr_left
  intro i hi
  have hlt : i < (word.flatMap spelling).length := Nat.lt_of_lt_of_le (List.mem_range.mp hi) hfull
  unfold codeAt
  rw [List.flatMap_append, List.getD_append _ _ _ _ hlt]

/-! ## Codes as digits -/

/-- The number that codes are the digits of in base 32, the first one highest. -/
def number (codes : List Nat) : Nat :=
  Nat.ofDigits 32 codes.reverse

@[simp]
theorem number_nil : number [] = 0 := rfl

@[simp]
theorem number_cons (code : Nat) (codes : List Nat) :
    number (code :: codes) = number codes + 32 ^ codes.length * code :=
  Nat.ofDigits_reverse_cons codes code

theorem number_lt {codes : List Nat} (h : ∀ code ∈ codes, code < 32) : number codes < 32 ^ codes.length := by
  rw [← List.length_reverse]
  exact Nat.ofDigits_lt_base_pow_length (by decide) fun code hcode => h code (List.mem_reverse.mp hcode)

/-- **Numbers with as many digits are ordered as their digits**, from the first on which they differ. -/
theorem number_lt_iff {codes others : List Nat} (hcodes : ∀ code ∈ codes, code < 32)
    (hothers : ∀ code ∈ others, code < 32) (hlength : codes.length = others.length) :
    number codes < number others ↔ codes < others := by
  induction codes generalizing others with
  | nil =>
    rw [List.length_nil, eq_comm, List.length_eq_zero_iff] at hlength
    simp [hlength]
  | cons code codes ih =>
    rcases others with _ | ⟨other, others⟩
    · simp at hlength
    · have hlength : codes.length = others.length := by simpa using hlength
      have hrest := fun digit hdigit => hcodes digit (.tail _ hdigit)
      have hrest' := fun digit hdigit => hothers digit (.tail _ hdigit)
      have hlow := number_lt hrest
      have hlow' := number_lt hrest'
      rw [← hlength] at hlow'
      -- the digits behind the first never make up for a difference of one in it
      have hstep : ∀ {small large : Nat}, small < large →
          32 ^ codes.length * small + 32 ^ codes.length ≤ 32 ^ codes.length * large := by
        intro small large hlt
        rw [← Nat.mul_succ]
        exact Nat.mul_le_mul_left _ hlt
      rw [List.cons_lt_cons_iff, number_cons, number_cons, ← hlength, ← ih hrest hrest' hlength]
      rcases Nat.lt_trichotomy code other with hlt | rfl | hgt
      · have := hstep hlt
        omega
      · omega
      · have := hstep hgt
        omega

/-! ## Keys as numbers -/

theorem toNat_words (high low : UInt16) :
    (high.toUInt32 <<< 16 ||| low.toUInt32).toNat = high.toNat * 0x10000 + low.toNat := by
  have hhigh := high.toNat_lt
  have hlow : low.toNat < 2 ^ 16 := low.toNat_lt
  rw [UInt32.toNat_or, UInt32.toNat_shiftLeft, UInt16.toNat_toUInt32, UInt16.toNat_toUInt32, Nat.shiftLeft_eq]
  change high.toNat * 2 ^ 16 % 2 ^ 32 ||| low.toNat = _
  rw [Nat.mod_eq_of_lt (by omega)]
  exact mul_or_eq_add hlow

theorem eq_of_length_eq_six {codes : List UInt8} (h : codes.length = 6) :
    codes = [codes.getD 0 5, codes.getD 1 5, codes.getD 2 5, codes.getD 3 5, codes.getD 4 5, codes.getD 5 5] := by
  rcases codes with _ | ⟨a, _ | ⟨b, _ | ⟨c, _ | ⟨d, _ | ⟨e, _ | ⟨f, _ | ⟨g, rest⟩⟩⟩⟩⟩⟩⟩ <;> simp at h ⊢

/-- The codes of a key, and the two words that they are packed into. -/
theorem exists_keyCodes (word : List UInt8) :
    ∃ a b c d e f : UInt8, keyCodes word = [a, b, c, d, e, f] ∧
      key word = (packCodes a b c).toUInt32 <<< 16 ||| (packCodes d e f ||| 0x8000).toUInt32 ∧
      ∀ code ∈ [a, b, c, d, e, f], code.toNat < 32 := by
  have hlength : (keyCodes word).length = 6 := by simp [keyCodes, keyLength]
  have hcodes := eq_of_length_eq_six hlength
  refine ⟨_, _, _, _, _, _, hcodes, rfl, ?_⟩
  rw [← hcodes]
  exact fun code => lt_32_of_mem_keyCodes

/-- A key is the number of its codes, with a bit set between its halves. -/
theorem toNat_key (word : List UInt8) :
    (key word).toNat = number (leadingCodes word) / 0x8000 * 0x10000 + 0x8000 +
      number (leadingCodes word) % 0x8000 := by
  obtain ⟨a, b, c, d, e, f, hcodes, hkey, hlt⟩ := exists_keyCodes word
  simp only [List.forall_mem_cons, List.not_mem_nil, false_implies, implies_true, and_true] at hlt
  obtain ⟨ha, hb, hc, hd, he, hf⟩ := hlt
  rw [hkey, toNat_words, toNat_packCodes ha hb hc, toNat_packCodes_or hd he hf, ← map_keyCodes, hcodes]
  simp only [List.map_cons, List.map_nil, number_cons, number_nil, List.length_cons, List.length_nil]
  omega

theorem key_lt_iff (word other : List UInt8) :
    key word < key other ↔ leadingCodes word < leadingCodes other := by
  rw [← number_lt_iff (lt_32_of_mem_leadingCodes word) (lt_32_of_mem_leadingCodes other)
    (by rw [length_leadingCodes, length_leadingCodes]), UInt32.lt_iff_toNat_lt, toNat_key, toNat_key]
  omega

theorem key_eq_iff (word other : List UInt8) :
    key word = key other ↔ leadingCodes word = leadingCodes other := by
  constructor
  · intro h
    have hnot : ¬ leadingCodes word < leadingCodes other := by
      rw [← key_lt_iff, h]
      exact UInt32.lt_irrefl _
    have hnot' : ¬ leadingCodes other < leadingCodes word := by
      rw [← key_lt_iff, h]
      exact UInt32.lt_irrefl _
    exact le_antisymm (not_lt.mp hnot') (not_lt.mp hnot)
  · intro h
    apply UInt32.toNat_inj.mp
    rw [toNat_key, toNat_key, h]

theorem testBit_key (word : List UInt8) :
    (key word).toNat.testBit 31 = false ∧ (key word).toNat.testBit 15 = true := by
  have hlt := number_lt (lt_32_of_mem_leadingCodes word)
  rw [length_leadingCodes] at hlt
  simp only [Nat.testBit_eq_decide_div_mod_eq, toNat_key, decide_eq_true_eq, decide_eq_false_iff_not]
  omega

/-- **Keys are ordered as the codes of their words.** Every word is encoded as its key. One key is below another just
if the first six codes of its word are before those of the other in lexicographic order, and they are equal just if
these codes are. The top bit of a key is never set, and the top bit of its low word always is. What stands behind six
codes does not change the key. -/
theorem key_order (word other : List UInt8) :
    encodeKey word = .ok (key word) ∧
    (key word < key other ↔ leadingCodes word < leadingCodes other) ∧
    (key word = key other ↔ leadingCodes word = leadingCodes other) ∧
    (key word).toNat.testBit 31 = false ∧ (key word).toNat.testBit 15 = true ∧
    (6 ≤ (word.flatMap spelling).length → ∀ more, key (word ++ more) = key word) := by
  obtain ⟨htop, hmiddle⟩ := testBit_key word
  refine ⟨encodeKey_eq word, key_lt_iff word other, key_eq_iff word other, htop, hmiddle, fun hfull more => ?_⟩
  rw [key_eq_iff, leadingCodes_append hfull]

theorem key_order_sample :
    key (ascii "Zoo") < key (ascii "zoo") ∧ key (ascii "z") < key (ascii "zoo") ∧
      6 ≤ ((ascii "lan@").flatMap spelling).length ∧
      key (ascii "lan@" ++ [0xFF]) = key (ascii "lan@") := by
  have hfull : 6 ≤ ((ascii "lan@").flatMap spelling).length := by decide
  exact ⟨(key_order _ _).2.1.mpr (by decide), (key_order _ _).2.1.mpr (by decide), hfull,
    (key_order _ []).2.2.2.2.2 hfull _⟩

/-! ## How much of a word a key holds -/

/-- The number of codes that a character takes: one for a letter in lower case, two for the letters that have to
be shifted to, and four for what is no letter. -/
def cost (character : UInt8) : Nat :=
  if character ∈ Alphabet.lower.letters then 1
  else if character ∈ Alphabet.upper.letters ∨ character ∈ Alphabet.symbols.letters then 2
  else 4

def totalCost (text : List UInt8) : Nat :=
  (text.map cost).sum

@[simp]
theorem totalCost_cons (character : UInt8) (text : List UInt8) :
    totalCost (character :: text) = cost character + totalCost text := rfl

theorem length_codesOf (character : UInt8) : (codesOf character).length = cost character := by
  rw [← List.length_map (f := UInt8.toNat), map_codesOf, spelling, cost]
  by_cases hlower : character ∈ Alphabet.lower.letters
  · simp [hlower]
  · by_cases hupper : character ∈ Alphabet.upper.letters
    · simp [hlower, hupper]
    · by_cases hsymbol : character ∈ Alphabet.symbols.letters
      · simp [hlower, hupper, hsymbol]
      · simp [hlower, hupper, hsymbol]

/-- The longest beginning of a word that a number of codes suffices for. -/
structure Longest (budget : Nat) (word kept : List UInt8) : Prop where
  begins : kept <+: word
  cost_le : totalCost kept ≤ budget
  maximal : ∀ other, other <+: word → totalCost other ≤ budget → other <+: kept

/-- The characters of a word, one after the other, as long as the codes suffice. -/
def affordable (budget : Nat) : List UInt8 → List UInt8
  | [] => []
  | character :: rest =>
    if cost character ≤ budget then character :: affordable (budget - cost character) rest else []

theorem longest_affordable (budget : Nat) (word : List UInt8) :
    Longest budget word (affordable budget word) := by
  induction word generalizing budget with
  | nil => exact ⟨List.prefix_rfl, Nat.zero_le _, fun other hother _ => hother⟩
  | cons character rest ih =>
    unfold affordable
    by_cases hcost : cost character ≤ budget
    · obtain ⟨hbegins, hle, hmaximal⟩ := ih (budget - cost character)
      rw [if_pos hcost]
      refine ⟨List.cons_prefix_cons.mpr ⟨rfl, hbegins⟩, by rw [totalCost_cons]; omega, ?_⟩
      intro other hother htotal
      rcases List.prefix_cons_iff.mp hother with rfl | ⟨tail, rfl, htail⟩
      · exact List.nil_prefix
      · rw [totalCost_cons] at htotal
        exact List.cons_prefix_cons.mpr ⟨rfl, hmaximal tail htail (by omega)⟩
    · rw [if_neg hcost]
      refine ⟨List.nil_prefix, Nat.zero_le _, ?_⟩
      intro other hother htotal
      rcases List.prefix_cons_iff.mp hother with rfl | ⟨tail, rfl, -⟩
      · exact List.nil_prefix
      · rw [totalCost_cons] at htotal
        omega

/-- There is one such beginning. -/
theorem Longest.unique {budget : Nat} {word kept other : List UInt8} (h : Longest budget word kept)
    (hother : Longest budget word other) : kept = other := by
  have hle := h.maximal other hother.begins hother.cost_le
  have hge := hother.maximal kept h.begins h.cost_le
  exact hge.eq_of_length_le hle.length_le

theorem Longest.eq_word {budget : Nat} {word kept : List UInt8} (h : Longest budget word kept)
    (hword : totalCost word ≤ budget) : kept = word :=
  h.unique ⟨List.prefix_rfl, hword, fun _ hother _ => hother⟩

/-! ## What the codes of a key write -/

section
variable {expand : Nat → Exec (Array UInt8) Unit} {shift : Shift} {text : Array UInt8}

/-- A ten-bit code that breaks off writes nothing. -/
theorem interpret_tenBit_cut (h : shift.alphabet = .symbols) {rest : List UInt8} (hrest : rest.length < 2) :
    interpret .single 0 expand shift (6 :: rest) = pure () := by
  rw [interpret.eq_def]
  dsimp only
  rw [if_neg (by decide), if_neg (by decide), if_neg (by decide), if_neg (by decide), if_pos ⟨h, rfl⟩]
  rcases rest with _ | ⟨high, _ | ⟨low, rest⟩⟩
  · rfl
  · rfl
  · simp at hrest

/-- **A character that was cut off writes nothing**, wherever it was cut. -/
theorem interpret_stump {character : UInt8} {count : Nat} (hcount : count < cost character) :
    interpret .single 0 expand {} ((codesOf character).take count) = pure () := by
  rw [← length_codesOf] at hcount
  rcases codesOf_cases character with ⟨code, -, heq⟩ | ⟨code, -, heq⟩ | ⟨code, -, heq⟩ | ⟨-, heq⟩ <;>
    rw [heq] at hcount ⊢
  · obtain rfl : count = 0 := by simpa using hcount
    rfl
  · rcases count with _ | _ | count
    · rfl
    · exact interpret_upper
    · simp at hcount
  · rcases count with _ | _ | count
    · rfl
    · exact interpret_symbols
    · simp at hcount
  · rcases count with _ | _ | count
    · rfl
    · exact interpret_symbols
    · have hcut : ([character >>> 5, character &&& 0x1F].take count).length < 2 := by
        simp at hcount ⊢
        omega
      exact interpret_symbols.trans (interpret_tenBit_cut rfl hcut)

/-- **The first codes of a word write the characters that they suffice for.** -/
theorem interpret_take {word : List UInt8} (hword : ∀ character ∈ word, Plain character) (count fill : Nat) :
    (interpret .single 0 expand {}
        ((word.flatMap codesOf ++ List.replicate fill 5).take count)).perform text =
      (.ok (), text ++ affordable count word) := by
  induction word generalizing count text with
  | nil =>
    rw [List.flatMap_nil, List.nil_append, List.take_replicate, interpret_fill]
    simp [affordable]
  | cons character rest ih =>
    rw [List.flatMap_cons, List.append_assoc, List.take_append, length_codesOf, affordable]
    by_cases hcost : cost character ≤ count
    · rw [List.take_of_length_le (by rwa [length_codesOf]), interpret_codesOf (hword character (by simp)),
        ih fun other hother => hword other (by simp [hother])]
      simp [hcost]
    · rw [Nat.sub_eq_zero_of_le (by omega), List.take_zero, List.append_nil, interpret_stump (by omega),
        if_neg hcost]
      simp

end

/-! ## Keys in memory -/

theorem longBytes_words (high low : UInt16) :
    longBytes (high.toUInt32 <<< 16 ||| low.toUInt32) = wordBytes high ++ wordBytes low := by
  have hhigh := high.toNat_lt
  have hlow := low.toNat_lt
  have hbyte : ∀ value shift : UInt32,
      (value >>> shift).toUInt8.toNat = value.toNat / 2 ^ (shift.toNat % 32) % 256 := by
    intro value shift
    rw [UInt32.toNat_toUInt8, UInt32.toNat_shiftRight, Nat.shiftRight_eq_div_pow]
  have hshift : ∀ value : UInt16, (value >>> 8).toUInt8.toNat = value.toNat / 256 % 256 := by
    intro value
    rw [UInt16.toNat_toUInt8, UInt16.toNat_shiftRight, Nat.shiftRight_eq_div_pow]
    rfl
  simp only [longBytes, wordBytes, List.cons_append, List.nil_append, List.cons.injEq, and_true,
    ← UInt8.toNat_inj, hbyte, hshift, UInt32.toNat_toUInt8, UInt16.toNat_toUInt8, toNat_words]
  simp
  omega

section
variable {image : Image} {address : UInt32} {word : List UInt8}

/-- The codes of a key that stands in memory, and the address behind it. -/
theorem codesAt_key (hsize : image.bytes.size < 0x100000000)
    (h : image.Holds address (longBytes (key word))) :
    codesAt image address = .ok (keyCodes word) ∧ endOf image address = .ok (address + 4) := by
  obtain ⟨a, b, c, d, e, f, hcodes, hkey, hlt⟩ := exists_keyCodes word
  simp only [List.forall_mem_cons, List.not_mem_nil, false_implies, implies_true, and_true] at hlt
  obtain ⟨ha, hb, hc, hd, he, hf⟩ := hlt
  rw [hkey, longBytes_words] at h
  have hfirst := h.readWord hsize
  have hsecond : image.readWord (address + 2) = .ok (packCodes d e f ||| 0x8000) := by
    have hright := h.right hsize 2 rfl
    rw [← List.append_nil (wordBytes _)] at hright
    exact hright.readWord hsize
  have hfront := toNat_packCodes ha hb hc
  have hback := toNat_packCodes_or hd he hf
  have hgoesOn : ¬ endsString (packCodes a b c) := by
    rw [endsString_iff, hfront]
    omega
  have hends : endsString (packCodes d e f ||| 0x8000) := by
    rw [endsString_iff, hback]
    omega
  have hunpack : unpackCodes (packCodes a b c) = [a, b, c] := unpackCodes_eq hb hc (by omega)
  have hunpack' : unpackCodes (packCodes d e f ||| 0x8000) = [d, e, f] := unpackCodes_eq he hf (by omega)
  constructor
  · rw [codesAt_eq hfirst, if_neg hgoesOn, codesAt_eq hsecond, if_pos hends, hunpack, hunpack', hcodes]
    rfl
  · rw [endOf_eq hfirst, if_neg hgoesOn, endOf_eq hsecond, if_pos hends, UInt32.add_assoc]
    rfl

/-- **A key is read back as its word, up to six codes.** A word is encoded as its key. Where the image holds the key of
a word of plain characters, decoding gives the longest beginning of the word that six codes suffice for, and so
the whole word if they suffice for it. The string ends behind the four bytes of the key. -/
theorem decode_key (hsize : image.bytes.size < 0x100000000) (hword : ∀ character ∈ word, Plain character)
    (hholds : image.Holds address (longBytes (key word))) (maxDepth : Int) :
    encodeKey word = .ok (key word) ∧ ∃ kept, decode image { maxDepth, shift := .single } 0 address = ⟨kept, none⟩ ∧
      Longest 6 word kept ∧ (totalCost word ≤ 6 → kept = word) ∧
      endOf image address = .ok (address + 4) ∧ (address + 4).toNat = address.toNat + 4 := by
  obtain ⟨hcodes, hend⟩ := codesAt_key hsize hholds
  have hfour : (address + 4).toNat = address.toNat + 4 := hholds.toNat_add hsize 4 (by simp [longBytes])
  have hlongest := longest_affordable 6 word
  refine ⟨encodeKey_eq word, affordable 6 word, ?_, hlongest, hlongest.eq_word, hend, hfour⟩
  unfold decode write
  rw [hcodes, Exec.perform_bind_ok (Exec.perform_ofExcept _ _), keyCodes, interpret_take hword]
  simp [keyLength]

end

/-- An image that holds, behind another byte, the key of a word whose third character is cut off. -/
def keySample : Image where
  header := Header.parse #[]
  bytes := #[0xFF] ++ (longBytes (key (ascii "Go@x"))).toArray
  pristine := #[]

theorem decode_key_sample :
    (keyCodes (ascii "Go@x") = [4, 12, 20, 5, 6, 2]) ∧
      decode keySample { maxDepth := 0, shift := .single } 0 1 = ⟨ascii "Go", none⟩ ∧
      endOf keySample 1 = .ok 5 := by
  have hword : ∀ character ∈ ascii "Go@x", Plain character := by decide +kernel
  have hholds : keySample.Holds 1 (longBytes (key (ascii "Go@x"))) := by decide +kernel
  obtain ⟨-, kept, hdecode, hlongest, -, hend, -⟩ := decode_key (by decide +kernel) hword hholds 0
  have hkept : kept = ascii "Go" := (hlongest.unique (longest_affordable _ _)).trans (by decide)
  exact ⟨by decide, hkept ▸ hdecode, hend⟩

end StoryMachine.Text
