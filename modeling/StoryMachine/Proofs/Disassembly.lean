import StoryMachine.Proofs.Assembly

/-!
# Instructions taken apart

Every opcode and every byte of types can be written, so what decodes was assembled.

* `longOpcode_of_form`, `shortOpcode_of_form`, `varOpcode_of_form`, `packTypes_ofByte` : the fields of a byte
  give the byte again;
* `exists_operand`, `exists_operands` : operands that were read stand in the image as they are written;
* `exists_source` : **an instruction that decodes is the assembly of a source**, and `decode_assemble` says
  what it decodes to.
-/

namespace StoryMachine

/-! ## Bytes from their fields -/

namespace Source

theorem longOpcode_of_form {opcode : UInt8} (h : Form.ofOpcode opcode = .long) :
    longOpcode (.ofNat 32 opcode.toNat) (.ofBit (opcode &&& 0x40)) (.ofBit (opcode &&& 0x20)) =
      opcode := by
  obtain ⟨⟨opcode⟩⟩ := opcode
  revert opcode
  decide +kernel

theorem shortOpcode_of_form {opcode : UInt8} (h : Form.ofOpcode opcode = .short) :
    shortOpcode (.ofNat 16 opcode.toNat) (OperandType.ofBits? (opcode >>> 4)) = opcode := by
  obtain ⟨⟨opcode⟩⟩ := opcode
  revert opcode
  decide +kernel

theorem varOpcode_of_form {opcode : UInt8} (h : Form.ofOpcode opcode = .var) :
    varOpcode (opcode &&& 0x20 = 0) (.ofNat 32 opcode.toNat) = opcode := by
  obtain ⟨⟨opcode⟩⟩ := opcode
  revert opcode
  decide +kernel

/-- A byte of types is its types, an omitted one, and the fields behind that. -/
theorem packTypes_ofByte (byte : UInt8) :
    packTypes ((OperandType.ofByte byte).map OperandType.bits ++ omittedBits ::
      (typeFields byte).drop ((OperandType.ofByte byte).length + 1)) = byte := by
  obtain ⟨⟨byte⟩⟩ := byte
  revert byte
  decide +kernel

theorem ofBit_ne_large (bit : UInt8) : OperandType.ofBit bit ≠ .large := by
  unfold OperandType.ofBit
  split
  · exact OperandType.noConfusion
  · exact OperandType.noConfusion

/-! ## Sources with given bytes -/

section
variable {opcode : UInt8} {operands : List Operand}

theorem exists_long (hform : Form.ofOpcode opcode = .long)
    (h : operands.map Operand.type = [.ofBit (opcode &&& 0x40), .ofBit (opcode &&& 0x20)]) :
    ∃ source : Source, source.opcode = opcode ∧ source.types = [] ∧ source.operands = operands := by
  rcases operands with _ | ⟨first, _ | ⟨second, _ | ⟨third, rest⟩⟩⟩
  · simp at h
  · simp at h
  · simp only [List.map_cons, List.map_nil, List.cons.injEq, and_true] at h
    have hfirst : first.type ≠ .large := h.1 ▸ ofBit_ne_large _
    have hsecond : second.type ≠ .large := h.2 ▸ ofBit_ne_large _
    refine ⟨.long (.ofNat 32 opcode.toNat) ⟨first, hfirst⟩ ⟨second, hsecond⟩, ?_, rfl, rfl⟩
    rw [Source.opcode, h.1, h.2, longOpcode_of_form hform]
  · simp at h

theorem exists_short (hform : Form.ofOpcode opcode = .short)
    (h : operands.map Operand.type = (OperandType.ofBits? (opcode >>> 4)).toList) :
    ∃ source : Source, source.opcode = opcode ∧ source.types = [] ∧ source.operands = operands := by
  have hopcode := shortOpcode_of_form hform
  cases htype : OperandType.ofBits? (opcode >>> 4) with
  | none =>
    rw [htype] at h hopcode
    obtain rfl := List.map_eq_nil_iff.mp h
    exact ⟨.short (.ofNat 16 opcode.toNat) none, hopcode, rfl, rfl⟩
  | some type =>
    rw [htype] at h hopcode
    obtain ⟨operand, rfl, rfl⟩ := List.map_eq_singleton_iff.mp h
    exact ⟨.short (.ofNat 16 opcode.toNat) (some operand), hopcode, rfl, rfl⟩

theorem exists_var (hform : Form.ofOpcode opcode = .var) {byte : UInt8}
    (h : operands.map Operand.type = OperandType.ofByte byte) :
    ∃ source : Source, source.opcode = opcode ∧ source.types = [byte] ∧ source.operands = operands := by
  have hroom : operands.length ≤ maxOperands := by
    rw [← List.length_map (f := Operand.type), h]
    exact OperandType.length_leading_le _
  have hbits : operands.map (·.type.bits) = (OperandType.ofByte byte).map OperandType.bits := by
    rw [← h, List.map_map]
    rfl
  refine ⟨.var (opcode &&& 0x20 = 0) (.ofNat 32 opcode.toNat) operands hroom
    ((typeFields byte).drop ((OperandType.ofByte byte).length + 1)), varOpcode_of_form hform, ?_, rfl⟩
  rw [Source.types, hbits, packTypes_ofByte]

end

end Source

/-! ## Operands -/

namespace Instruction.Cursor

theorem of_byte {cursor after : Cursor} {value : UInt8}
    (h : byte.perform cursor = (.ok value, after)) :
    cursor.store.image.Holds cursor.next [value] ∧ after = { cursor with next := cursor.next + 1 } ∧
      after.next.toNat = cursor.next.toNat + 1 := by
  rw [byte_eq, perform_reading] at h
  cases hread : cursor.store.image.readByte cursor.next with
  | error e =>
    rw [hread] at h
    cases h
  | ok read =>
    rw [hread] at h
    cases h
    exact ⟨.of_readByte hread, rfl, Image.toNat_behind_readByte hread⟩

theorem of_word {cursor after : Cursor} {value : UInt16}
    (h : word.perform cursor = (.ok value, after)) :
    cursor.store.image.Holds cursor.next (wordBytes value) ∧
      after = { cursor with next := cursor.next + 2 } ∧ after.next.toNat = cursor.next.toNat + 2 := by
  rw [word_eq, perform_reading] at h
  cases hread : cursor.store.image.readWord cursor.next with
  | error e =>
    rw [hread] at h
    cases h
  | ok read =>
    rw [hread] at h
    cases h
    exact ⟨.of_readWord hread, rfl, (Image.behind_readWord hread).1⟩

/-- An operand that was read stands in the image, and reading has moved behind it. -/
theorem exists_operand {type : OperandType} {cursor after : Cursor} {value : UInt16}
    (h : (operand type).perform cursor = (.ok value, after)) :
    ∃ written : Operand, written.type = type ∧
      cursor.store.image.Holds cursor.next written.bytes ∧
      after.next.toNat = cursor.next.toNat + written.bytes.length ∧
      after.store.image = cursor.store.image := by
  have himage := Store.image_of_pops ((takes_operand type).reads cursor).pops
  rw [h] at himage
  cases type with
  | large =>
    obtain ⟨hholds, -, hnext⟩ := of_word h
    exact ⟨.large value, rfl, hholds, hnext, himage⟩
  | small =>
    obtain ⟨number, middle, hbyte, hrest⟩ := Exec.exists_of_perform_bind h
    obtain ⟨hholds, -, hnext⟩ := of_byte hbyte
    cases hrest
    exact ⟨.small number, rfl, hholds, hnext, himage⟩
  | var =>
    obtain ⟨number, middle, hbyte, hrest⟩ := Exec.exists_of_perform_bind h
    obtain ⟨hholds, -, hnext⟩ := of_byte hbyte
    rw [variableValue, Exec.perform_within] at hrest
    obtain ⟨-, rfl⟩ := Prod.mk.inj hrest
    exact ⟨.var number, rfl, hholds, hnext, himage⟩

theorem exists_operands {types : List OperandType} {cursor after : Cursor}
    (h : (takeOperands types).perform cursor = (.ok (), after)) :
    ∃ operands : List Operand, operands.map Operand.type = types ∧
      cursor.store.image.Holds cursor.next (operands.flatMap Operand.bytes) := by
  induction types generalizing cursor with
  | nil => exact ⟨[], rfl, List.nil_prefix⟩
  | cons type rest ih =>
    obtain ⟨⟨⟩, middle, htake, hrest⟩ := Exec.exists_of_perform_bind h
    obtain ⟨value, read, hread, hadd⟩ := Exec.exists_of_perform_bind htake
    obtain ⟨operand, htype, hholds, hnext, himage⟩ := exists_operand hread
    -- the operand slots are filled without touching store and address
    have hkept : middle.store = read.store ∧ middle.next = read.next := by
      rw [Exec.perform_change] at hadd
      split at hadd
      · rename_i filled hfilled
        cases hadd
        obtain ⟨instruction, -, hfilled⟩ := exists_of_bind_eq_ok hfilled
        cases hfilled
        exact ⟨rfl, rfl⟩
      · cases hadd
    obtain ⟨operands, htypes, hothers⟩ := ih hrest
    rw [hkept.1, hkept.2, himage] at hothers
    refine ⟨operand :: operands, by rw [List.map_cons, htype, htypes], ?_⟩
    rw [List.flatMap_cons]
    exact hholds.append hothers hnext

end Instruction.Cursor

/-! ## Instructions -/

namespace Instruction

section
variable {pc : UInt32} {store : Store}

/-- The types that were read, with operands of these types, are those of a source. -/
theorem exists_source_of_types {opcode : UInt8} {operands : List Operand} {middle : Cursor}
    (h : (Cursor.operandTypes opcode).perform (Cursor.begun pc store opcode) =
      (.ok (operands.map Operand.type), middle))
    (hoperands : middle.store.image.Holds middle.next (operands.flatMap Operand.bytes)) :
    ∃ source : Source, source.opcode = opcode ∧
      store.image.Holds (pc + 1) (source.types ++ source.operands.flatMap Operand.bytes) := by
  unfold Cursor.operandTypes at h
  cases hform : Form.ofOpcode opcode with
  | long =>
    rw [hform] at h
    obtain ⟨htypes, rfl⟩ := Prod.mk.inj h
    obtain ⟨source, hopcode, hnone, rfl⟩ := Source.exists_long hform (Except.ok.inj htypes).symm
    exact ⟨source, hopcode, by rwa [hnone]⟩
  | short =>
    rw [hform] at h
    obtain ⟨htypes, rfl⟩ := Prod.mk.inj h
    obtain ⟨source, hopcode, hnone, rfl⟩ := Source.exists_short hform (Except.ok.inj htypes).symm
    exact ⟨source, hopcode, by rwa [hnone]⟩
  | var =>
    rw [hform] at h
    obtain ⟨types, behind, hbyte, hread⟩ := Exec.exists_of_perform_bind h
    obtain ⟨htypes, rfl⟩ := Prod.mk.inj hread
    obtain ⟨hholds, rfl, hnext⟩ := Cursor.of_byte hbyte
    obtain ⟨source, hopcode, hsome, rfl⟩ := Source.exists_var hform (Except.ok.inj htypes).symm
    refine ⟨source, hopcode, ?_⟩
    rw [hsome]
    exact hholds.append hoperands hnext

/-- **What decodes was assembled.** -/
theorem exists_source (h : (decode pc store).1.failure = none) :
    ∃ source : Source, store.image.Holds pc source.assemble := by
  unfold decode at h
  rw [Cursor.perform_instructionHere] at h
  cases hread : store.image.readByte pc with
  | error e =>
    rw [hread] at h
    cases h
  | ok opcode =>
    rw [hread] at h
    dsimp only at h
    rcases hperform : (do Cursor.takeOperands (← Cursor.operandTypes opcode) : Exec Cursor Unit).perform
      (Cursor.begun pc store opcode) with ⟨e | _, behind⟩
    · rw [hperform] at h
      cases h
    · obtain ⟨types, middle, htypes, htake⟩ := Exec.exists_of_perform_bind hperform
      obtain ⟨operands, rfl, hoperands⟩ := Cursor.exists_operands htake
      obtain ⟨source, rfl, hholds⟩ := exists_source_of_types htypes hoperands
      have hfirst := Image.Holds.of_readByte hread
      exact ⟨source, hfirst.append hholds (Image.toNat_behind_readByte hread)⟩

end

end Instruction

end StoryMachine
