import Mathlib.Data.Nat.Bitwise
import StoryMachine.Proofs.Placement
import StoryMachine.Text.Key

/-!
# Text stored and read back

* `storedCodes`, `packWords`, `encode` : how a text is stored: the codes of its characters, three to a
  word, the last word filled up with 5s and marked by its top bit;
* `unpackCodes_eq`, `endsString_iff` : a word's codes are digits in base 32, and its top bit is above them;
* `codesAt_packWords` : the codes of a stored string, up to the 5s that fill it, and the address behind it;
* `interpret_codesOf`, `interpret_storedCodes` : in the lower alphabet, the codes of a character write it,
  and the codes behind them are in the lower alphabet again;
* `decode_encode` : **a text is read back the way it was stored.**
-/

namespace StoryMachine.Text

/-! ## How text is stored -/

/-- A printable character of ASCII, or the line end. -/
def Plain (character : UInt8) : Prop :=
  character = newline ∨ 32 ≤ character ∧ character ≤ 126

instance (character : UInt8) : Decidable (Plain character) :=
  inferInstanceAs (Decidable (_ ∨ _))

/-- The codes of a character in a string. The blank is code 0. Every other character has the codes that it
has in a key: a lower-case letter one, an upper-case letter one behind shift 4, a symbol one behind shift 5,
and what is in no alphabet its ten-bit code behind 5 and 6. -/
def storedCodes (character : UInt8) : List UInt8 :=
  if character = space then [0] else codesOf character

/-- The last word of a string, filled up with 5s and marked by its top bit. -/
def lastWord (codes : List UInt8) : UInt16 :=
  packCodes (codes.getD 0 5) (codes.getD 1 5) (codes.getD 2 5) ||| 0x8000

/-- The words of a string, three codes each. -/
def packWords : List UInt8 → List UInt16
  | a :: b :: c :: d :: rest => packCodes a b c :: packWords (d :: rest)
  | codes => [lastWord codes]

/-- The words that a text is stored as. -/
def encode (text : List UInt8) : List UInt16 :=
  packWords (text.flatMap storedCodes)

example : encode (ascii "") = [0x94A5] := by decide

/-! ## Words of codes -/

section Words
variable {a b c : UInt8}

theorem toNat_packCodes (ha : a.toNat < 32) (hb : b.toNat < 32) (hc : c.toNat < 32) :
    (packCodes a b c).toNat = (a.toNat * 32 + b.toNat) * 32 + c.toNat := by
  have hfirst : a.toNat <<< 10 % 2 ^ 16 = a.toNat <<< 10 := by
    rw [Nat.shiftLeft_eq]
    exact Nat.mod_eq_of_lt (by omega)
  have hsecond : b.toNat <<< 5 % 2 ^ 16 = b.toNat <<< 5 := by
    rw [Nat.shiftLeft_eq]
    exact Nat.mod_eq_of_lt (by omega)
  unfold packCodes
  simp only [UInt16.toNat_or, UInt16.toNat_shiftLeft, UInt8.toNat_toUInt16]
  change a.toNat <<< 10 % 2 ^ 16 ||| b.toNat <<< 5 % 2 ^ 16 ||| c.toNat = _
  rw [hfirst, hsecond, Nat.or_assoc, @shiftLeft_or_eq_add b.toNat c.toNat 5 hc,
    shiftLeft_or_eq_add (by omega)]
  omega

theorem toNat_packCodes_or (ha : a.toNat < 32) (hb : b.toNat < 32) (hc : c.toNat < 32) :
    (packCodes a b c ||| 0x8000).toNat = 0x8000 + ((a.toNat * 32 + b.toNat) * 32 + c.toNat) := by
  have hcodes := toNat_packCodes ha hb hc
  rw [UInt16.or_comm, UInt16.toNat_or, hcodes]
  change 1 <<< 15 ||| _ = _
  exact (shiftLeft_or_eq_add (by omega)).trans (by omega)

theorem endsString_iff (word : UInt16) : endsString word ↔ 0x8000 ≤ word.toNat := by
  have hword := word.toNat_lt
  have hbit : word.toNat &&& 0x8000 = (word.toNat.testBit 15).toNat * 0x8000 :=
    Nat.and_two_pow word.toNat 15
  unfold endsString
  rw [decide_eq_true_iff, ne_eq, ← UInt16.toNat_inj, UInt16.toNat_and]
  change ¬ (word.toNat &&& 0x8000) = 0 ↔ _
  rw [hbit, Nat.testBit_eq_decide_div_mod_eq]
  by_cases htop : word.toNat / 2 ^ 15 % 2 = 1
  · rw [decide_eq_true htop, Bool.toNat_true]
    omega
  · rw [decide_eq_false htop, Bool.toNat_false]
    omega

/-- The codes of a word are the digits of its low fifteen bits. -/
theorem unpackCodes_eq {word : UInt16} (hb : b.toNat < 32) (hc : c.toNat < 32)
    (h : word.toNat % 0x8000 = (a.toNat * 32 + b.toNat) * 32 + c.toNat) :
    unpackCodes word = [a, b, c] := by
  have hlow : ∀ w : UInt16, (w &&& 0x1F).toUInt8.toNat = w.toNat % 32 := by
    intro w
    rw [UInt16.toNat_toUInt8, UInt16.toNat_and]
    change (w.toNat &&& 2 ^ 5 - 1) % 2 ^ 8 = _
    rw [Nat.and_two_pow_sub_one_eq_mod]
    omega
  have hfirst : (word >>> 10).toNat = word.toNat / 1024 := by
    rw [UInt16.toNat_shiftRight, Nat.shiftRight_eq_div_pow]
    rfl
  have hsecond : (word >>> 5).toNat = word.toNat / 32 := by
    rw [UInt16.toNat_shiftRight, Nat.shiftRight_eq_div_pow]
    rfl
  unfold unpackCodes
  simp only [← UInt8.toNat_inj, List.cons.injEq, and_true, hlow, hfirst, hsecond]
  omega

end Words

/-! ## The codes of a stored string -/

section Stored
variable {image : Image} {address : UInt32}

theorem codesAt_eq {word : UInt16} (hread : image.readWord address = .ok word) :
    codesAt image address =
      if endsString word then .ok (unpackCodes word)
      else return unpackCodes word ++ (← codesAt image (address + 2)) := by
  rw [codesAt]
  split
  · rename_i error herror
    rw [hread] at herror
    cases herror
  · rename_i read hok
    rw [hread] at hok
    cases hok
    rfl

theorem endOf_eq {word : UInt16} (hread : image.readWord address = .ok word) :
    endOf image address =
      if endsString word then .ok (address + 2) else endOf image (address + 2) := by
  rw [endOf]
  split
  · rename_i error herror
    rw [hread] at herror
    cases herror
  · rename_i read hok
    rw [hread] at hok
    cases hok
    rfl

/-- What `packWords` puts into a last word is at most three codes. -/
theorem length_le_three {codes : List UInt8}
    (h : ∀ a b c d rest, codes = a :: b :: c :: d :: rest → False) : codes.length ≤ 3 := by
  rcases codes with _ | ⟨a, _ | ⟨b, _ | ⟨c, _ | ⟨d, rest⟩⟩⟩⟩
  · exact Nat.zero_le 3
  · simp
  · simp
  · simp
  · exact (h a b c d rest rfl).elim

/-- Where the last word of a string has no code of its own, it has a 5. -/
theorem last_codes {codes : List UInt8} (hlength : codes.length ≤ 3) :
    [codes.getD 0 5, codes.getD 1 5, codes.getD 2 5] =
      codes ++ List.replicate (3 - codes.length) 5 := by
  rcases codes with _ | ⟨a, _ | ⟨b, _ | ⟨c, _ | ⟨d, rest⟩⟩⟩⟩
  · rfl
  · rfl
  · rfl
  · rfl
  · simp only [List.length_cons] at hlength
    omega

theorem lastWord_spec {codes : List UInt8} (hlength : codes.length ≤ 3)
    (hcodes : ∀ code ∈ codes, code.toNat < 32) :
    endsString (lastWord codes) ∧
      unpackCodes (lastWord codes) = codes ++ List.replicate (3 - codes.length) 5 := by
  have hlt : ∀ i, (codes.getD i 5).toNat < 32 := by
    intro i
    rw [List.getD_eq_getElem?_getD]
    cases hi : codes[i]? with
    | none => decide
    | some code => exact hcodes code (List.mem_of_getElem? hi)
  have hfirst := hlt 0
  have hsecond := hlt 1
  have hthird := hlt 2
  have hword := toNat_packCodes_or hfirst hsecond hthird
  constructor
  · rw [endsString_iff, lastWord, hword]
    omega
  · rw [← last_codes hlength]
    exact unpackCodes_eq hsecond hthird (by rw [lastWord, hword]; omega)

/-- **The codes of a stored string, and the address behind it.** Behind the codes that were stored there
are only 5s. -/
theorem codesAt_packWords (hsize : image.bytes.size < 0x100000000) {codes : List UInt8}
    (hcodes : ∀ code ∈ codes, code.toNat < 32)
    (h : image.Holds address ((packWords codes).flatMap wordBytes)) :
    (∃ fill, codesAt image address = .ok (codes ++ List.replicate fill 5)) ∧
      ∃ behind, endOf image address = .ok behind ∧
        behind.toNat = address.toNat + 2 * (packWords codes).length := by
  fun_induction packWords codes generalizing address with
  | case1 a b c d rest ih =>
    rw [List.flatMap_cons] at h
    have hread := h.readWord hsize
    have ha := hcodes a (by simp)
    have hb := hcodes b (by simp)
    have hc := hcodes c (by simp)
    have hword := toNat_packCodes ha hb hc
    have hgoesOn : ¬ endsString (packCodes a b c) := by
      rw [endsString_iff, hword]
      omega
    have hunpack : unpackCodes (packCodes a b c) = [a, b, c] := unpackCodes_eq hb hc (by omega)
    have hadd : (address + 2).toNat = address.toNat + 2 := h.toNat_add hsize 2 (by simp [wordBytes])
    obtain ⟨⟨fill, hfill⟩, behind, hbehind, hnext⟩ :=
      ih (fun code hcode => hcodes code (by simp_all)) (h.right hsize 2 rfl)
    refine ⟨⟨fill, ?_⟩, behind, ?_, ?_⟩
    · rw [codesAt_eq hread, if_neg hgoesOn, hfill, hunpack]
      rfl
    · rw [endOf_eq hread, if_neg hgoesOn, hbehind]
    · rw [hnext, hadd, List.length_cons]
      omega
  | case2 codes hshort =>
    have hlength := length_le_three hshort
    obtain ⟨hend, hunpack⟩ := lastWord_spec hlength hcodes
    rw [List.flatMap_cons] at h
    have hread := h.readWord hsize
    have hadd : (address + 2).toNat = address.toNat + 2 := h.toNat_add hsize 2 (by simp [wordBytes])
    refine ⟨⟨3 - codes.length, ?_⟩, address + 2, ?_, hadd⟩
    · rw [codesAt_eq hread, if_pos hend, hunpack]
    · rw [endOf_eq hread, if_pos hend]

end Stored

/-! ## What codes write -/

/-- A letter's code is not one of the first six, and its alphabet has the letter there. -/
theorem letter_of_code? {alphabet : Alphabet} {letter code : UInt8}
    (h : alphabet.code? letter = some code) :
    6 ≤ code.toNat ∧ code.toNat < 32 ∧ alphabet.letter code = .ok letter ∧
      (alphabet = .symbols → code ≠ 6) := by
  have hrow := alphabet.length_row
  unfold Alphabet.code? at h
  cases hindex : alphabet.row.idxOf? letter with
  | none =>
    rw [hindex] at h
    cases h
  | some index =>
    obtain ⟨hlt, hletter, -⟩ := List.idxOf?_eq_some_iff.mp hindex
    have hcode : code = index.toUInt8 + 6 ∧ (alphabet = .symbols → index ≠ 0) := by
      rw [hindex] at h
      cases index with
      | zero =>
        simp at h
        simp [h]
      | succ index =>
        cases h
        simp
    obtain ⟨rfl, hsymbols⟩ := hcode
    have htoNat : (index.toUInt8 + 6).toNat = index + 6 := by
      rw [UInt8.toNat_add, Nat.toUInt8, UInt8.toNat_ofNat']
      change (index % 256 + 6) % 256 = _
      omega
    refine ⟨by omega, by omega, ?_, ?_⟩
    · unfold Alphabet.letter
      rw [toNat_sub_six (by omega), htoNat, Nat.add_sub_cancel, List.getElem?_eq_getElem hlt, hletter]
    · intro halphabet hsix
      refine hsymbols halphabet ?_
      rw [← UInt8.toNat_inj, htoNat] at hsix
      change index + 6 = 6 at hsix
      omega

/-- A character has a letter of its own in one of the alphabets, or a ten-bit code. -/
theorem codesOf_cases (character : UInt8) :
    (∃ code, Alphabet.lower.code? character = some code ∧ codesOf character = [code]) ∨
    (∃ code, Alphabet.upper.code? character = some code ∧ codesOf character = [4, code]) ∨
    (∃ code, Alphabet.symbols.code? character = some code ∧ codesOf character = [5, code]) ∨
    Alphabet.symbols.code? character = none ∧
      codesOf character = ([5, 6, character >>> 5, character &&& 0x1F] : List UInt8) := by
  unfold codesOf
  cases Alphabet.lower.code? character with
  | some code => exact .inl ⟨code, rfl, rfl⟩
  | none =>
    right
    cases Alphabet.upper.code? character with
    | some code => exact .inl ⟨code, rfl, rfl⟩
    | none =>
      right
      cases Alphabet.symbols.code? character with
      | some code => exact .inl ⟨code, rfl, rfl⟩
      | none => exact .inr ⟨rfl, rfl⟩

section Interpretation
variable {mode : ShiftMode} {expand : Nat → Exec (Array UInt8) Unit} {shift : Shift}
  {rest : List UInt8} {text : Array UInt8}

theorem perform_emit (character : UInt8) (text : Array UInt8) :
    (emit 0 character).perform text = (.ok (), text.push character) := rfl

theorem interpret_space :
    (interpret mode 0 expand shift (0 :: rest)).perform text =
      (interpret mode 0 expand {} rest).perform (text.push space) := by
  rw [interpret.eq_def]
  dsimp only
  rw [if_pos rfl, Exec.perform_bind_ok (perform_emit space text)]

theorem interpret_letter {letter code : UInt8} (h : shift.alphabet.code? letter = some code) :
    (interpret mode 0 expand shift (code :: rest)).perform text =
      (interpret mode 0 expand shift.settle rest).perform (text.push letter) := by
  obtain ⟨hlow, -, hletter, hsix⟩ := letter_of_code? h
  -- the code is none of those that are no letters in any alphabet
  have hne : ∀ other : UInt8, other.toNat < 6 → code ≠ other := by
    rintro other hother rfl
    omega
  have hnot : ¬ code < 4 := by
    rw [UInt8.lt_iff_toNat_lt]
    change ¬ code.toNat < 4
    omega
  rw [interpret.eq_def]
  dsimp only
  rw [if_neg (hne 0 (by decide)), if_neg hnot, if_neg (hne 4 (by decide)),
    if_neg (hne 5 (by decide)), if_neg (fun h => hsix h.1 h.2), hletter]
  rw [Exec.perform_bind_ok (Exec.perform_ofExcept _ text), Exec.perform_bind_ok (perform_emit letter text)]

theorem interpret_tenBit (h : shift.alphabet = .symbols) (high low : UInt8) :
    (interpret mode 0 expand shift (6 :: high :: low :: rest)).perform text =
      (interpret mode 0 expand shift.settle rest).perform
        (text.push (ofCode (high.toUInt16 <<< 5 ||| low.toUInt16))) := by
  rw [interpret.eq_def]
  dsimp only
  rw [if_neg (by decide), if_neg (by decide), if_neg (by decide), if_neg (by decide),
    if_pos ⟨h, rfl⟩]
  exact Exec.perform_bind_ok (perform_emit _ text)

theorem interpret_upper :
    interpret .single 0 expand shift (4 :: rest) =
      interpret .single 0 expand { shift with next := some .upper } rest := by
  rw [interpret.eq_def]
  dsimp only
  rw [if_neg (by decide), if_neg (by decide), if_pos rfl]
  rfl

theorem interpret_symbols :
    interpret .single 0 expand shift (5 :: rest) =
      interpret .single 0 expand { shift with next := some .symbols } rest := by
  rw [interpret.eq_def]
  dsimp only
  rw [if_neg (by decide), if_neg (by decide), if_neg (by decide), if_pos rfl]
  rfl

/-- A character is its own ten-bit code. -/
theorem ofCode_tenBit {character : UInt8} (hlow : 32 ≤ character) (hhigh : character ≤ 126) :
    ofCode ((character >>> 5).toUInt16 <<< 5 ||| (character &&& 0x1F).toUInt16) = character := by
  have hcode : (character >>> 5).toUInt16 <<< 5 ||| (character &&& 0x1F).toUInt16 =
      character.toUInt16 := by
    have hlt := character.toNat_lt
    apply UInt16.toNat_inj.mp
    simp only [UInt16.toNat_or, UInt16.toNat_shiftLeft, UInt8.toNat_toUInt16, UInt8.toNat_and,
      UInt8.toNat_shiftRight]
    change (character.toNat >>> 5) <<< 5 % 2 ^ 16 ||| (character.toNat &&& 2 ^ 5 - 1) = _
    rw [Nat.and_two_pow_sub_one_eq_mod, Nat.shiftRight_eq_div_pow, Nat.mod_eq_of_lt,
      shiftLeft_or_eq_add (Nat.mod_lt _ (by decide))]
    · omega
    · rw [Nat.shiftLeft_eq]
      omega
  rw [UInt8.le_iff_toNat_le] at hlow hhigh
  change 32 ≤ character.toNat at hlow
  change character.toNat ≤ 126 at hhigh
  have hprints : 32 ≤ character.toUInt16 ∧ character.toUInt16 ≤ 126 := by
    rw [UInt16.le_iff_toNat_le, UInt16.le_iff_toNat_le, UInt8.toNat_toUInt16]
    exact ⟨hlow, hhigh⟩
  have hreturn : character.toUInt16 ≠ 13 := by
    intro heq
    rw [← UInt16.toNat_inj, UInt8.toNat_toUInt16] at heq
    change character.toNat = 13 at heq
    omega
  rw [hcode]
  unfold ofCode
  rw [if_neg hreturn, if_pos hprints, UInt8.toUInt8_toUInt16]

/-- The codes of a character write it and leave the alphabet as it was. -/
theorem interpret_codesOf {character : UInt8} (h : Plain character) :
    (interpret .single 0 expand {} (codesOf character ++ rest)).perform text =
      (interpret .single 0 expand {} rest).perform (text.push character) := by
  rcases codesOf_cases character with ⟨code, hcode, heq⟩ | ⟨code, hcode, heq⟩ | ⟨code, hcode, heq⟩ |
    ⟨hnone, heq⟩
  · rw [heq]
    exact interpret_letter hcode
  · rw [heq, List.cons_append, interpret_upper]
    exact interpret_letter hcode
  · rw [heq, List.cons_append, interpret_symbols]
    exact interpret_letter hcode
  · -- the line end is a symbol, so a character without a letter is printable
    have hprintable : 32 ≤ character ∧ character ≤ 126 := by
      refine h.resolve_left ?_
      rintro rfl
      exact absurd hnone (by decide)
    rw [heq, List.cons_append, interpret_symbols]
    refine (interpret_tenBit rfl _ _).trans ?_
    rw [ofCode_tenBit hprintable.1 hprintable.2]
    rfl

theorem interpret_storedCodes {character : UInt8} (h : Plain character) :
    (interpret .single 0 expand {} (storedCodes character ++ rest)).perform text =
      (interpret .single 0 expand {} rest).perform (text.push character) := by
  unfold storedCodes
  split
  · rename_i hspace
    rw [hspace]
    exact interpret_space
  · exact interpret_codesOf h

/-- Shifts with no code behind them write nothing. -/
theorem interpret_fill (fill : Nat) :
    (interpret .single 0 expand shift (List.replicate fill 5)).perform text = (.ok (), text) := by
  -- each 5 takes the place of the shift before it, so the shift is arbitrary
  induction fill generalizing shift with
  | zero => rfl
  | succ fill ih =>
    rw [List.replicate_succ, interpret_symbols]
    exact ih

theorem interpret_stored {characters : List UInt8} (h : ∀ character ∈ characters, Plain character)
    (fill : Nat) :
    (interpret .single 0 expand {}
        (characters.flatMap storedCodes ++ List.replicate fill 5)).perform text =
      (.ok (), text ++ characters) := by
  induction characters generalizing text with
  | nil =>
    rw [List.flatMap_nil, List.nil_append, interpret_fill]
    simp
  | cons character characters ih =>
    rw [List.flatMap_cons, List.append_assoc, interpret_storedCodes (h character (by simp)),
      ih fun other hother => h other (by simp [hother])]
    simp

end Interpretation

/-! ## Reading back what was stored -/

theorem lt_32_of_mem_codesOf {character code : UInt8} (h : code ∈ codesOf character) :
    code.toNat < 32 := by
  rcases codesOf_cases character with ⟨letter, hletter, heq⟩ | ⟨letter, hletter, heq⟩ |
    ⟨letter, hletter, heq⟩ | ⟨-, heq⟩ <;>
    simp only [heq, List.mem_cons, List.not_mem_nil, or_false] at h
  · rw [h]
    exact (letter_of_code? hletter).2.1
  · rcases h with rfl | rfl
    · decide
    · exact (letter_of_code? hletter).2.1
  · rcases h with rfl | rfl
    · decide
    · exact (letter_of_code? hletter).2.1
  · have hcharacter := character.toNat_lt
    have hlow := @Nat.and_le_right character.toNat 31
    rcases h with rfl | rfl | rfl | rfl
    · decide
    · decide
    · rw [UInt8.toNat_shiftRight, Nat.shiftRight_eq_div_pow]
      change character.toNat / 32 < 32
      omega
    · rw [UInt8.toNat_and]
      change character.toNat &&& 31 < 32
      omega

theorem lt_32_of_mem_storedCodes {character code : UInt8} (h : code ∈ storedCodes character) :
    code.toNat < 32 := by
  unfold storedCodes at h
  split at h
  · rw [List.mem_singleton.mp h]
    decide
  · exact lt_32_of_mem_codesOf h

/-- **A text is read back the way it was stored**, whatever stands around it and however deep
abbreviations may nest. -/
theorem decode_encode {image : Image} (hsize : image.bytes.size < 0x100000000) {address : UInt32}
    {text : List UInt8} (htext : ∀ character ∈ text, Plain character)
    (hholds : image.Holds address ((encode text).flatMap wordBytes)) (maxDepth : Int) :
    decode image { maxDepth, shift := .single } 0 address = ⟨text, none⟩ ∧
      ∃ behind, endOf image address = .ok behind ∧
        behind.toNat = address.toNat + 2 * (encode text).length := by
  have hcodes : ∀ code ∈ text.flatMap storedCodes, code.toNat < 32 := by
    intro code hcode
    obtain ⟨character, -, hmem⟩ := List.mem_flatMap.mp hcode
    exact lt_32_of_mem_storedCodes hmem
  obtain ⟨⟨fill, hfill⟩, hbehind⟩ := codesAt_packWords hsize hcodes hholds
  refine ⟨?_, hbehind⟩
  unfold decode write
  rw [hfill, Exec.perform_bind_ok (Exec.perform_ofExcept _ _), interpret_stored htext]
  simp

/-- An image that holds, behind two other bytes, a text with every kind of code. -/
def storedSample : Image where
  header := Header.parse #[]
  bytes := #[0xFF, 0xFF] ++ ((encode (ascii "Go 9,\n@$a")).flatMap wordBytes).toArray
  pristine := #[]

theorem decode_encode_sample :
    (encode (ascii "Go 9,\n@$a")).length = 7 ∧
      decode storedSample { maxDepth := -1, shift := .single } 0 2 = ⟨ascii "Go 9,\n@$a", none⟩ ∧
      ∃ behind, endOf storedSample 2 = .ok behind ∧
        behind.toNat = 2 + 2 * (encode (ascii "Go 9,\n@$a")).length :=
  ⟨by decide, decode_encode (by decide) (by decide +kernel) (by decide) (-1)⟩

end StoryMachine.Text
