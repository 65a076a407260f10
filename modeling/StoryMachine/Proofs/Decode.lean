import StoryMachine.Instruction.Decode
import StoryMachine.Machine.Operation
import StoryMachine.Proofs.Reading
import StoryMachine.Proofs.Store

/-!
# What decoding an instruction does

* `Store.Pop` : the top word is popped, and nothing else happens to the store;
* `Instruction.WellFormed` : the operands have slots and the number has an entry in its table;
* `Cursor.Reads count` : what reading up to `count` operands may do to a decoding in progress;
  `Cursor.Takes count step` : the step does that, and fails with errors that halt the machine as long as
  there are slots for `count` more operands;
* `decode_pops`, `decode_wellFormed`, `decode_next`, `decode_failure` : the outcome of `decode` on any
  bytes.
-/

namespace StoryMachine

open Relation (ReflTransGen)

/-! ## Stores that lose words -/

namespace Store

/-- The top word is popped. -/
inductive Pop : Store → Store → Prop
  | mk {store : Store} {value : UInt16} {stack : Stack} (h : store.stack.pop = .ok (value, stack)) :
      Pop store { store with stack }

theorem image_of_pops {store after : Store} (h : ReflTransGen Pop store after) :
    after.image = store.image := by
  induction h with
  | refl => rfl
  | tail _ hpop ih =>
    cases hpop
    exact ih

theorem calls_of_pops {store after : Store} (h : ReflTransGen Pop store after) :
    after.calls = store.calls := by
  induction h with
  | refl => rfl
  | tail _ hpop ih =>
    cases hpop
    exact ih

theorem changes_of_pops {store after : Store} (h : ReflTransGen Pop store after) :
    ReflTransGen Change store after := by
  induction h with
  | refl => exact .refl
  | tail _ hpop ih =>
    obtain ⟨hpop⟩ := hpop
    exact ih.tail (.pop hpop)

/-- A variable other than variable 0 is read in place. -/
theorem read_keeps {number : UInt8} (h : number ≠ 0) (store : Store) :
    ((read number).perform store).2 = store := by
  unfold read
  rw [if_neg h]
  split
  · rw [readLocal, Exec.perform_query]
  · unfold readGlobal
    split
    · rfl
    · rw [Exec.perform_query]

/-- Reading a variable changes nothing but for the word that variable 0 pops. -/
theorem pops_read (number : UInt8) (store : Store) :
    ReflTransGen Pop store ((read number).perform store).2 := by
  by_cases hzero : number = 0
  · unfold read
    rw [if_pos hzero, perform_pop]
    cases h : store.stack.pop with
    | error e => exact .refl
    | ok popped => exact .single ⟨h⟩
  · rw [read_keeps hzero]

end Store

/-! ## Well-formed instructions -/

theorem OperandType.length_leading_le (fields : List UInt8) :
    (leading fields).length ≤ fields.length := by
  induction fields with
  | nil => exact Nat.le_refl 0
  | cons bits rest ih =>
    rw [leading]
    split
    · exact Nat.succ_le_succ ih
    · exact Nat.zero_le _

namespace Instruction

/-- There are slots for the operands, and the number has an entry in the table of its family. -/
structure WellFormed (instruction : Instruction) : Prop where
  operands_le : instruction.numOperands ≤ maxOperands
  number_lt : instruction.number.toNat < (Operation.table instruction.count).length

theorem WellFormed.checkArguments {instruction : Instruction} (h : instruction.WellFormed) :
    instruction.checkArguments = .ok instruction.arguments := by
  unfold Instruction.checkArguments
  rw [if_pos h.operands_le]

theorem WellFormed.exists_find {instruction : Instruction} (h : instruction.WellFormed) :
    ∃ entry, Operation.find instruction.count instruction.number = .ok entry := by
  unfold Operation.find
  rw [List.getElem?_eq_getElem h.number_lt]
  exact ⟨_, rfl⟩

theorem toNat_and_le (a b : UInt8) : (a &&& b).toNat ≤ b.toNat := by
  rw [UInt8.toNat_and]
  exact Nat.and_le_right

/-- A number of four bits has an entry in every table, one of five bits in the longer two. -/
theorem numberOf_lt (opcode : UInt8) :
    (numberOf opcode).toNat < (Operation.table (.ofOpcode opcode)).length := by
  unfold numberOf OperandCount.ofOpcode
  cases Form.ofOpcode opcode with
  | short =>
    have hlow := toNat_and_le opcode 0x0F
    dsimp only
    split
    · exact Nat.lt_of_le_of_lt hlow (by decide)
    · exact Nat.lt_of_le_of_lt hlow (by decide)
  | long =>
    dsimp only
    exact Nat.lt_of_le_of_lt (toNat_and_le opcode 0x1F) (by decide)
  | var =>
    have hlow := toNat_and_le opcode 0x1F
    dsimp only
    split
    · exact Nat.lt_of_le_of_lt hlow (by decide)
    · exact Nat.lt_of_le_of_lt hlow (by decide)

/-! ## Reading operands -/

namespace Cursor

/-- What reading up to `count` operands may do: pop words, fill operand slots, and move on inside the
image. -/
structure Reads (count : Nat) (cursor after : Cursor) : Prop where
  pops : ReflTransGen Store.Pop cursor.store after.store
  keeps : after.instruction = { cursor.instruction with
    operands := after.instruction.operands
    numOperands := after.instruction.numOperands }
  operands_le : after.instruction.numOperands ≤ cursor.instruction.numOperands + count
  next : after.next = cursor.next ∨ after.next.toNat ≤ cursor.store.image.length.toNat

theorem Reads.refl (count : Nat) (cursor : Cursor) : Reads count cursor cursor :=
  ⟨.refl, rfl, Nat.le_add_right _ _, .inl rfl⟩

theorem Reads.trans {j k : Nat} {a b c : Cursor} (hab : Reads j a b) (hbc : Reads k b c) :
    Reads (j + k) a c := by
  refine ⟨hab.pops.trans hbc.pops, ?_, ?_, ?_⟩
  · have h := hbc.keeps
    rw [hab.keeps] at h
    exact h
  · have h₁ := hab.operands_le
    have h₂ := hbc.operands_le
    omega
  · have himage := Store.image_of_pops hab.pops
    rcases hbc.next with h | h
    · rw [h]
      exact hab.next
    · exact .inr (by rwa [← himage])

theorem Reads.mono {j k : Nat} {a b : Cursor} (h : Reads j a b) (hjk : j ≤ k) : Reads k a b :=
  ⟨h.pops, h.keeps, Nat.le_trans h.operands_le (Nat.add_le_add_left hjk _), h.next⟩

/-- The step reads up to `count` operands. -/
structure Takes {α : Type} (count : Nat) (step : Exec Cursor α) : Prop where
  reads : ∀ cursor, Reads count cursor (step.perform cursor).2
  guarded : ∀ cursor : Cursor, cursor.store.WellFormed →
    cursor.instruction.numOperands + count ≤ maxOperands → Guarded (step.perform cursor).1

section
variable {α β : Type} {j k : Nat}

theorem Takes.pure (count : Nat) (value : α) : Takes count (Pure.pure value : Exec Cursor α) :=
  ⟨fun cursor => .refl count cursor, fun _ _ _ => .ok value⟩

theorem Takes.bind {step : Exec Cursor α} {next : α → Exec Cursor β} (h : Takes j step)
    (hnext : ∀ cursor value after, step.perform cursor = (.ok value, after) → Takes k (next value)) :
    Takes (j + k) (step >>= next) := by
  constructor
  · intro cursor
    have hreads := h.reads cursor
    rcases hp : step.perform cursor with ⟨_ | value, after⟩ <;> rw [hp] at hreads
    · rw [Exec.perform_bind_error hp]
      exact hreads.mono (Nat.le_add_right j k)
    · rw [Exec.perform_bind_ok hp]
      exact hreads.trans ((hnext cursor value after hp).reads after)
  · intro cursor hstore hroom
    have hreads := h.reads cursor
    have hguarded := h.guarded cursor hstore (by omega)
    rcases hp : step.perform cursor with ⟨_ | value, after⟩ <;> rw [hp] at hreads hguarded
    · rw [Exec.perform_bind_error hp]
      exact .error (hguarded _ rfl)
    · rw [Exec.perform_bind_ok hp]
      refine (hnext cursor value after hp).guarded after
        (hstore.changes (Store.changes_of_pops hreads.pops)) ?_
      have hle : after.instruction.numOperands ≤ cursor.instruction.numOperands + j :=
        hreads.operands_le
      omega

end

/-- Reads a value of the given width and moves behind it. -/
def reading {α : Type} (read : Image → UInt32 → Except Error α) (width : UInt32) : Exec Cursor α := do
  let value ← .query fun cursor => read cursor.store.image cursor.next
  modify fun cursor => { cursor with next := cursor.next + width }
  return value

theorem perform_reading {α : Type} (read : Image → UInt32 → Except Error α) (width : UInt32)
    (cursor : Cursor) :
    (reading read width).perform cursor =
      match read cursor.store.image cursor.next with
      | .ok value => (.ok value, { cursor with next := cursor.next + width })
      | .error error => (.error error, cursor) := by
  unfold reading
  cases h : read cursor.store.image cursor.next with
  | error e => rw [Exec.perform_bind_error (by rw [Exec.perform_query, h])]
  | ok value => rw [Exec.perform_bind_ok (by rw [Exec.perform_query, h])]; rfl

theorem takes_reading {α : Type} {read : Image → UInt32 → Except Error α} {width : UInt32}
    (hguarded : ∀ {image : Image}, image.WellFormed → ∀ address, Guarded (read image address))
    (hbehind : ∀ {image : Image} {address value}, read image address = .ok value →
      (address + width).toNat ≤ image.length.toNat) :
    Takes 0 (reading read width) := by
  constructor
  · intro cursor
    rw [perform_reading]
    cases h : read cursor.store.image cursor.next with
    | error e => exact .refl 0 cursor
    | ok value => exact ⟨.refl, rfl, Nat.le_refl _, .inr (hbehind h)⟩
  · intro cursor hstore _
    rw [perform_reading]
    cases h : read cursor.store.image cursor.next with
    | error e => exact .error (hguarded hstore.image _ e h)
    | ok value => exact .ok value

theorem byte_eq : byte = reading Image.readByte 1 := rfl

theorem word_eq : word = reading Image.readWord 2 := rfl

theorem takes_byte : Takes 0 byte :=
  takes_reading Image.readByte_guarded Image.behind_readByte

theorem takes_word : Takes 0 word := by
  rw [word_eq]
  refine takes_reading Image.readWord_guarded ?_
  intro image address value h
  obtain ⟨hadd, hle⟩ := Image.behind_readWord h
  rwa [hadd]

theorem takes_variableValue (number : UInt8) : Takes 0 (variableValue number) := by
  constructor
  · intro cursor
    rw [variableValue, Exec.perform_within]
    exact ⟨Store.pops_read number cursor.store, rfl, Nat.le_refl _, .inl rfl⟩
  · intro cursor hstore _
    rw [variableValue, Exec.perform_within]
    exact (Store.obeys_read number).raises cursor.store hstore

theorem takes_operand (type : OperandType) : Takes 0 (operand type) := by
  cases type with
  | large => exact takes_word
  | small => exact .bind takes_byte fun _ _ _ _ => .pure 0 _
  | var => exact .bind takes_byte fun _ number _ _ => takes_variableValue number

theorem takes_addOperand (value : UInt16) :
    Takes 1 (.change fun cursor =>
      return { cursor with instruction := ← cursor.instruction.addOperand value }) := by
  constructor
  · intro cursor
    rw [Exec.perform_change]
    unfold addOperand
    split
    · rename_i h
      split at h
      · cases h
        exact ⟨.refl, rfl, Nat.le_refl _, .inl rfl⟩
      · cases h
    · exact .refl 1 cursor
  · intro cursor _ hroom
    have hslot : cursor.instruction.numOperands < maxOperands := hroom
    rw [Exec.perform_change, addOperand, dif_pos hslot]
    exact .ok ()

theorem takes_takeOperands (types : List OperandType) : Takes types.length (takeOperands types) := by
  induction types with
  | nil => exact .pure 0 ()
  | cons type rest ih =>
    have hone : Takes 1 (takeOperand type) := by
      have h := Takes.bind (takes_operand type) fun _ value _ _ => takes_addOperand value
      exact h
    have h := Takes.bind hone fun _ _ _ _ => ih
    rwa [Nat.add_comm] at h

theorem takes_operandTypes (opcode : UInt8) : Takes 0 (operandTypes opcode) := by
  unfold operandTypes
  cases Form.ofOpcode opcode with
  | long => exact .pure 0 _
  | short => exact .pure 0 _
  | var => exact .bind takes_byte fun _ _ _ _ => .pure 0 _

theorem length_of_operandTypes {opcode : UInt8} {cursor after : Cursor} {types : List OperandType}
    (h : (operandTypes opcode).perform cursor = (.ok types, after)) : types.length ≤ maxOperands := by
  unfold operandTypes at h
  cases hform : Form.ofOpcode opcode with
  | long =>
    rw [hform] at h
    cases h
    exact Nat.le_of_ble_eq_true rfl
  | short =>
    rw [hform] at h
    cases h
    cases OperandType.ofBits? (opcode >>> 4) <;> exact Nat.le_of_ble_eq_true rfl
  | var =>
    rw [hform] at h
    rcases hp : byte.perform cursor with ⟨_ | value, middle⟩
    · rw [Exec.perform_bind_error hp] at h
      cases h
    · rw [Exec.perform_bind_ok hp] at h
      cases h
      exact OperandType.length_leading_le _

theorem Takes.mono {α : Type} {step : Exec Cursor α} {j k : Nat} (h : Takes j step) (hjk : j ≤ k) :
    Takes k step :=
  ⟨fun cursor => (h.reads cursor).mono hjk, fun cursor hstore hroom =>
    h.guarded cursor hstore (by omega)⟩

theorem takes_operands (opcode : UInt8) :
    Takes maxOperands (do takeOperands (← operandTypes opcode)) := by
  have h := Takes.bind (takes_operandTypes opcode) fun cursor types after hp =>
    (takes_takeOperands types).mono (length_of_operandTypes hp)
  rwa [Nat.zero_add] at h

/-- The decoding of an opcode at an address, before its operands. -/
def begun (pc : UInt32) (store : Store) (opcode : UInt8) : Cursor where
  store
  next := pc + 1
  instruction := {
    address := pc
    opcode
    form := .ofOpcode opcode
    count := .ofOpcode opcode
    number := numberOf opcode }

/-- Reading an instruction fails at its opcode, or goes on to its operands. -/
theorem perform_instructionHere (pc : UInt32) (store : Store) :
    instructionHere.perform ⟨store, pc, { address := pc }⟩ =
      match store.image.readByte pc with
      | .ok opcode =>
        (do takeOperands (← operandTypes opcode) : Exec Cursor Unit).perform (begun pc store opcode)
      | .error error => (.error error, ⟨store, pc, { address := pc }⟩) := by
  unfold instructionHere
  have hbyte := perform_reading Image.readByte 1 ⟨store, pc, { address := pc }⟩
  rw [← byte_eq] at hbyte
  dsimp only at hbyte
  cases h : store.image.readByte pc with
  | error e =>
    rw [h] at hbyte
    rw [Exec.perform_bind_error hbyte]
  | ok opcode =>
    rw [h] at hbyte
    rw [Exec.perform_bind_ok hbyte, Exec.perform_bind_ok (Exec.perform_modify _ _)]
    rfl

end Cursor

/-! ## The outcome of decoding -/

section Outcome
variable (pc : UInt32) (store : Store)

/-- Decoding ends where no opcode can be read, or behind operands, or at one that fails. -/
theorem decode_cases :
    (∃ error, store.image.readByte pc = .error error ∧
      decode pc store = (⟨{ address := pc }, pc, some error⟩, store)) ∨
    ∃ opcode cursor, store.image.readByte pc = .ok opcode ∧
      Cursor.Reads maxOperands (Cursor.begun pc store opcode) cursor ∧
      (decode pc store = (⟨cursor.instruction, cursor.next, none⟩, cursor.store) ∨
        ∃ error, (store.WellFormed → error.operational) ∧
          decode pc store = (⟨cursor.instruction, pc, some error⟩, cursor.store)) := by
  unfold decode
  rw [Cursor.perform_instructionHere]
  cases hbyte : store.image.readByte pc with
  | error e => exact .inl ⟨e, rfl, rfl⟩
  | ok opcode =>
    have htakes := Cursor.takes_operands opcode
    have hreads := htakes.reads (Cursor.begun pc store opcode)
    have hguarded := htakes.guarded (Cursor.begun pc store opcode)
    rcases hp : (do Cursor.takeOperands (← Cursor.operandTypes opcode) : Exec Cursor Unit).perform
      (Cursor.begun pc store opcode) with ⟨e | _, cursor⟩
    · rw [hp] at hreads hguarded
      refine .inr ⟨opcode, cursor, rfl, hreads, .inr ⟨e, fun hstore => ?_, ?_⟩⟩
      · exact hguarded hstore (Nat.le_refl _) e rfl
      · dsimp only
        rw [hp]
    · rw [hp] at hreads
      refine .inr ⟨opcode, cursor, rfl, hreads, .inl ?_⟩
      dsimp only
      rw [hp]

theorem decode_pops : ReflTransGen Store.Pop store (decode pc store).2 := by
  rcases decode_cases pc store with ⟨e, -, h⟩ | ⟨opcode, cursor, -, hreads, h | ⟨e, -, h⟩⟩
  · rw [h]
  · rw [h]
    exact hreads.pops
  · rw [h]
    exact hreads.pops

theorem wellFormed_of_reads {opcode : UInt8} {cursor : Cursor}
    (h : Cursor.Reads maxOperands (Cursor.begun pc store opcode) cursor) : cursor.instruction.WellFormed := by
  refine ⟨h.operands_le, ?_⟩
  rw [h.keeps]
  exact numberOf_lt opcode

theorem decode_wellFormed : (decode pc store).1.instruction.WellFormed := by
  rcases decode_cases pc store with ⟨e, -, h⟩ | ⟨opcode, cursor, -, hreads, h | ⟨e, -, h⟩⟩
  · rw [h]
    exact ⟨Nat.zero_le _, Nat.zero_lt_succ _⟩
  · rw [h]
    exact wellFormed_of_reads pc store hreads
  · rw [h]
    exact wellFormed_of_reads pc store hreads

/-- The address behind a decoded instruction is not outside the image. -/
theorem decode_next (h : (decode pc store).1.failure = none) :
    (decode pc store).1.next.toNat ≤ store.image.length.toNat := by
  rcases decode_cases pc store with ⟨e, -, hd⟩ | ⟨opcode, cursor, hbyte, hreads, hd | ⟨e, -, hd⟩⟩
  · rw [hd] at h
    cases h
  · rw [hd]
    rcases hreads.next with hnext | hnext
    · change cursor.next.toNat ≤ _
      rw [hnext]
      exact Image.behind_readByte hbyte
    · exact hnext
  · rw [hd] at h
    cases h

theorem decode_failure (hstore : store.WellFormed) {error : Error}
    (h : (decode pc store).1.failure = some error) :
    error.operational ∧ (decode pc store).1.next = pc := by
  rcases decode_cases pc store with ⟨e, hbyte, hd⟩ | ⟨opcode, cursor, -, -, hd | ⟨e, he, hd⟩⟩
  · rw [hd] at h ⊢
    cases h
    exact ⟨Image.readByte_guarded hstore.image pc error hbyte, rfl⟩
  · rw [hd] at h
    cases h
  · rw [hd] at h ⊢
    cases h
    exact ⟨he hstore, rfl⟩

end Outcome

end Instruction

end StoryMachine
