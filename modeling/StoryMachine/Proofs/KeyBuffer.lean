import StoryMachine.Proofs.Law
import StoryMachine.Text.Key

/-!
# Collecting the codes of a key

The codes of a word are put into a buffer one character after the other, and no check keeps them inside it. They stay
inside because there are fewer than six whenever a character is added, and a character has four codes at most.

* `keyCodes`, `key` : the first six codes of a word, and what they are packed into;
* `KeyBuffer.Holds codes buffer` : the buffer has these codes and no others; `exists_fill` : **filling a buffer never
  goes outside it**, and leaves the first six codes of the word at its beginning;
* `encodeKey_eq` : every word has its key.
-/

namespace StoryMachine.Text

/-- The first six codes of a word, filled up with 5s. -/
def keyCodes (text : List UInt8) : List UInt8 :=
  (text.flatMap codesOf ++ List.replicate keyLength 5).take keyLength

/-- The first six codes of a word as two words of memory, the second with the end bit. -/
def key (text : List UInt8) : UInt32 :=
  let code := fun index => (keyCodes text).getD index 5
  let first := packCodes (code 0) (code 1) (code 2)
  let second := packCodes (code 3) (code 4) (code 5) ||| 0x8000
  first.toUInt32 <<< 16 ||| second.toUInt32

theorem length_codesOf_le (character : UInt8) : (codesOf character).length ≤ 4 := by
  unfold codesOf
  split
  · exact Nat.le_of_ble_eq_true rfl
  · split
    · exact Nat.le_of_ble_eq_true rfl
    · split <;> exact Nat.le_of_ble_eq_true rfl

namespace KeyBuffer

/-- The codes stand at the beginning of the buffer, and it counts as many. -/
structure Holds (codes : List UInt8) (buffer : KeyBuffer) : Prop where
  used_eq : buffer.used = codes.length
  getElem_eq : ∀ i (hi : i < codes.length) (hroom : i < keyRoom), buffer.cells[i] = codes[i]

section
variable {codes : List UInt8} {buffer : KeyBuffer}

theorem exists_put (h : Holds codes buffer) (hroom : codes.length < keyRoom) (code : UInt8) :
    ∃ after, buffer.put code = .ok after ∧ Holds (codes ++ [code]) after := by
  have hused : buffer.used < keyRoom := h.used_eq ▸ hroom
  refine ⟨_, dif_pos hused, ?_, ?_⟩
  · rw [List.length_append, ← h.used_eq]
    rfl
  · intro i hi hinside
    by_cases hlast : i = buffer.used
    · subst hlast
      simp [h.used_eq]
    · have hbefore : i < codes.length := by
        rw [h.used_eq] at hlast
        rw [List.length_append, List.length_singleton] at hi
        omega
      rw [Vector.getElem_set_ne _ _ (Ne.symm hlast), List.getElem_append_left hbefore, h.getElem_eq i hbefore]

theorem exists_foldlM (h : Holds codes buffer) (more : List UInt8)
    (hroom : codes.length + more.length ≤ keyRoom) :
    ∃ after, more.foldlM put buffer = .ok after ∧ Holds (codes ++ more) after := by
  induction more generalizing codes buffer with
  | nil => exact ⟨buffer, rfl, by rwa [List.append_nil]⟩
  | cons code more ih =>
    rw [List.length_cons] at hroom
    obtain ⟨middle, hput, hmiddle⟩ := exists_put h (by omega) code
    obtain ⟨after, hmore, hafter⟩ := ih hmiddle (by rw [List.length_append, List.length_singleton]; omega)
    refine ⟨after, ?_, by rwa [List.append_assoc] at hafter⟩
    rw [List.foldlM_cons, hput, ok_bind, hmore]

/-- **Filling a buffer never goes outside it.** It ends with at least six codes, and the first six are those of what it
had and the word. -/
theorem exists_fill (h : Holds codes buffer) (hroom : codes.length ≤ keyRoom) (text : List UInt8) :
    ∃ after all, buffer.fill text = .ok after ∧ Holds all after ∧ keyLength ≤ all.length ∧
      all.take keyLength = (codes ++ text.flatMap codesOf ++ List.replicate keyLength 5).take keyLength := by
  induction text generalizing codes buffer with
  | nil =>
    have hlength : (List.replicate (keyLength - buffer.used) (5 : UInt8)).length = 6 - codes.length := by
      rw [List.length_replicate, h.used_eq, keyLength]
    obtain ⟨after, hfill, hafter⟩ := exists_foldlM h (List.replicate (keyLength - buffer.used) 5)
      (by rw [hlength]; unfold keyRoom at *; omega)
    refine ⟨after, _, hfill, hafter, ?_, ?_⟩
    · rw [List.length_append, hlength, keyLength]
      omega
    · rw [List.flatMap_nil, List.append_nil, List.take_append, List.take_append, List.take_replicate,
        List.take_replicate, h.used_eq, Nat.min_self, Nat.min_eq_left (Nat.sub_le _ _)]
  | cons character rest ih =>
    unfold fill
    by_cases hfew : buffer.used < keyLength
    · have hcodes := length_codesOf_le character
      have hsix : codes.length < 6 := h.used_eq ▸ hfew
      have hinside : codes.length + (codesOf character).length ≤ keyRoom := by
        unfold keyRoom
        omega
      obtain ⟨middle, hput, hmiddle⟩ := exists_foldlM h (codesOf character) hinside
      obtain ⟨after, all, hfill, hall⟩ := ih hmiddle (by rwa [List.length_append])
      refine ⟨after, all, ?_, ?_⟩
      · rw [if_pos hfew, hput, ok_bind, hfill]
      · rwa [List.flatMap_cons, ← List.append_assoc]
    · have hfull : keyLength ≤ codes.length := h.used_eq ▸ Nat.not_lt.mp hfew
      refine ⟨buffer, codes, if_neg hfew, h, hfull, ?_⟩
      rw [List.append_assoc, List.take_append_of_le_length hfull]

end

end KeyBuffer

/-- Every word has its key. -/
theorem encodeKey_eq (text : List UInt8) : encodeKey text = .ok (key text) := by
  have hempty : KeyBuffer.Holds [] {} := ⟨rfl, nofun⟩
  obtain ⟨⟨cells, used⟩, all, hfill, hholds, hlength, htake⟩ :=
    KeyBuffer.exists_fill hempty (Nat.zero_le _) text
  rw [List.nil_append] at htake
  have hcell : ∀ i (hroom : i < keyRoom), i < keyLength → cells[i] = (keyCodes text).getD i 5 := by
    intro i hroom hi
    have hinside : i < all.length := Nat.lt_of_lt_of_le hi hlength
    rw [keyCodes, ← htake, List.getD_eq_getElem?_getD, List.getElem?_take_of_lt hi,
      List.getElem?_eq_getElem hinside, Option.getD_some]
    exact hholds.getElem_eq i hinside hroom
  rw [encodeKey, hfill, ok_bind]
  dsimp only
  rw [hcell 0 _ (by decide), hcell 1 _ (by decide), hcell 2 _ (by decide), hcell 3 _ (by decide),
    hcell 4 _ (by decide), hcell 5 _ (by decide)]
  rfl

end StoryMachine.Text
