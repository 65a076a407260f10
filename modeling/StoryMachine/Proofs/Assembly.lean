import Mathlib.Data.List.Basic
import StoryMachine.Proofs.Decode
import StoryMachine.Proofs.Placement

/-!
# Instructions assembled and decoded

* `Operand` : an operand as it is written, with its type and bytes; `Operand.resolve` : its value, for which
  variable 0 pops the stack;
* `resolveAll` : the values of operands from left to right, up to the first that fails;
* `Source`, `Source.assemble` : an instruction in long, short or variable form, and its bytes. A type byte
  says nothing behind its first omitted type, so these bits are arbitrary;
* `perform_takeOperands` : decoding operands resolves them;
* `decode_assemble` : **decoding gives the instruction that was assembled, with its operands resolved.**
-/

namespace StoryMachine

/-! ## Operands -/

/-- An operand as it is written: a word, a byte, or the number of a variable. -/
inductive Operand where
  | large (value : UInt16)
  | small (value : UInt8)
  | var (number : UInt8)
  deriving DecidableEq

namespace Operand

def type : Operand → OperandType
  | large _ => .large
  | small _ => .small
  | var _ => .var

def bytes : Operand → List UInt8
  | large value => wordBytes value
  | small value => [value]
  | var number => [number]

/-- The number of bytes. -/
def width : Operand → UInt32
  | large _ => 2
  | small _ => 1
  | var _ => 1

theorem toNat_width (operand : Operand) : operand.width.toNat = operand.bytes.length := by
  cases operand <;> rfl

/-- The value of an operand; one that names variable 0 is popped. -/
def resolve : Operand → Exec Store UInt16
  | large value => pure value
  | small value => pure value.toUInt16
  | var number => Store.read number

/-- Resolving an operand pops its value if it names variable 0, and changes nothing otherwise. -/
theorem resolve_cases (operand : Operand) (store : Store) :
    (∃ value stack, operand = .var 0 ∧ store.stack.pop = .ok (value, stack) ∧
      operand.resolve.perform store = (.ok value, { store with stack })) ∨
    (∃ value, operand ≠ .var 0 ∧ operand.resolve.perform store = (.ok value, store)) ∨
    ∃ error, operand.resolve.perform store = (.error error, store) := by
  cases operand with
  | large value => exact .inr (.inl ⟨value, by simp, rfl⟩)
  | small value => exact .inr (.inl ⟨value.toUInt16, by simp, rfl⟩)
  | var number =>
    by_cases hzero : number = 0
    · subst hzero
      have hread : (resolve (.var 0)).perform store = Store.pop.perform store := rfl
      rw [hread, Store.perform_pop]
      cases hpop : store.stack.pop with
      | error e => exact .inr (.inr ⟨e, rfl⟩)
      | ok popped => exact .inl ⟨popped.1, popped.2, rfl, rfl, rfl⟩
    · have hkept : ((Store.read number).perform store).2 = store := Store.read_keeps hzero store
      right
      change (∃ value, _ ∧ (Store.read number).perform store = _) ∨
        ∃ error, (Store.read number).perform store = _
      rcases hread : (Store.read number).perform store with ⟨error | value, after⟩
      · rw [hread] at hkept
        exact .inr ⟨error, by rw [← hkept]⟩
      · rw [hread] at hkept
        exact .inl ⟨value, by simpa using hzero, by rw [← hkept]⟩

theorem image_resolve (operand : Operand) (store : Store) :
    (operand.resolve.perform store).2.image = store.image := by
  rcases operand.resolve_cases store with ⟨value, stack, -, -, h⟩ | ⟨value, -, h⟩ | ⟨error, h⟩
  · rw [h]
  · rw [h]
  · rw [h]

/-- An operand that fails changes nothing. -/
theorem store_of_error {operand : Operand} {store after : Store} {error : Error}
    (h : operand.resolve.perform store = (.error error, after)) : after = store := by
  rcases operand.resolve_cases store with ⟨value, stack, -, -, hok⟩ | ⟨value, -, hok⟩ | ⟨e, herror⟩
  · cases h.symm.trans hok
  · cases h.symm.trans hok
  · cases h.symm.trans herror
    rfl

end Operand

/-! ## Resolving operands -/

/-- The values of operands up to the first that failed, and the store behind them. -/
structure Resolution where
  values : List UInt16
  failure : Option Error
  store : Store

/-- Whether all operands were resolved. -/
def Resolution.outcome (resolution : Resolution) : Except Error Unit :=
  match resolution.failure with
  | some error => .error error
  | none => .ok ()

/-- Resolves operands from left to right, up to the first that fails. -/
def resolveAll : List Operand → Store → Resolution
  | [], store => ⟨[], none, store⟩
  | operand :: rest, store =>
    match operand.resolve.perform store with
    | (.ok value, after) =>
      { resolveAll rest after with values := value :: (resolveAll rest after).values }
    | (.error error, after) => ⟨[], some error, after⟩

section
variable {operand : Operand} {rest : List Operand} {store after : Store}

theorem resolveAll_ok {value : UInt16} (h : operand.resolve.perform store = (.ok value, after)) :
    resolveAll (operand :: rest) store =
      { resolveAll rest after with values := value :: (resolveAll rest after).values } := by
  rw [resolveAll, h]

theorem resolveAll_error {error : Error}
    (h : operand.resolve.perform store = (.error error, after)) :
    resolveAll (operand :: rest) store = ⟨[], some error, after⟩ := by
  rw [resolveAll, h]

end

/-- A failure is the first operand's whose resolution fails, behind those that gave values. -/
theorem exists_of_resolveAll_failure {operands : List Operand} {store : Store} {error : Error}
    (h : (resolveAll operands store).failure = some error) :
    ∃ before operand rest, operands = before ++ operand :: rest ∧
      resolveAll before store =
        ⟨(resolveAll operands store).values, none, (resolveAll operands store).store⟩ ∧
      operand.resolve.perform (resolveAll operands store).store =
        (.error error, (resolveAll operands store).store) := by
  induction operands generalizing store with
  | nil => cases h
  | cons operand rest ih =>
    rcases hresolve : operand.resolve.perform store with ⟨e | value, after⟩
    · rw [resolveAll_error hresolve] at h ⊢
      cases h
      obtain rfl := operand.store_of_error hresolve
      exact ⟨[], operand, rest, rfl, rfl, hresolve⟩
    · rw [resolveAll_ok hresolve] at h ⊢
      obtain ⟨before, failed, behind, rfl, hbefore, hfailed⟩ := ih h
      refine ⟨operand :: before, failed, behind, rfl, ?_, hfailed⟩
      rw [resolveAll_ok hresolve, hbefore]

theorem length_of_resolveAll {operands : List Operand} {store : Store}
    (h : (resolveAll operands store).failure = none) :
    (resolveAll operands store).values.length = operands.length := by
  induction operands generalizing store with
  | nil => rfl
  | cons operand rest ih =>
    rcases hresolve : operand.resolve.perform store with ⟨e | value, after⟩
    · rw [resolveAll_error hresolve] at h
      cases h
    · rw [resolveAll_ok hresolve] at h ⊢
      exact congrArg (· + 1) (ih h)

/-- The values of the operands that name variable 0. -/
def poppedValues : List Operand → List UInt16 → List UInt16
  | operand :: operands, value :: values =>
    if operand = .var 0 then value :: poppedValues operands values else poppedValues operands values
  | _, _ => []

/-- The words are popped, the first of them first, and stay in the cells above the top. -/
structure Stack.Loses (stack : Stack) (words : List UInt16) (after : Stack) : Prop where
  values : stack.values.toList = after.values.toList ++ words.reverse
  spare : after.spare = words.reverse ++ stack.spare
  capacity : after.capacity = stack.capacity
  floor : after.floor = stack.floor

theorem Stack.Loses.refl (stack : Stack) : stack.Loses [] stack :=
  ⟨(List.append_nil _).symm, rfl, rfl, rfl⟩

theorem Stack.Loses.cons {value : UInt16} {words : List UInt16} {stack middle after : Stack}
    (hpop : stack.pop = .ok (value, middle)) (h : middle.Loses words after) :
    stack.Loses (value :: words) after := by
  obtain ⟨top, htop, hmiddle⟩ := exists_of_bind_eq_ok hpop
  cases hmiddle
  obtain ⟨-, hback⟩ := of_top htop
  have hlast : stack.values.pop.toList ++ [value] = stack.values.toList := by
    rw [Array.toList_pop]
    apply List.dropLast_append_getLast?
    rw [Array.getLast?_toList, hback]
    rfl
  refine ⟨?_, ?_, h.capacity, h.floor⟩
  · rw [← hlast, h.values, List.append_assoc, List.reverse_cons]
  · rw [h.spare, List.reverse_cons, List.append_assoc]
    rfl

/-- Resolving operands pops the values of those that name variable 0, and changes nothing else. -/
theorem resolveAll_loses (operands : List Operand) (store : Store) :
    (resolveAll operands store).store =
        { store with stack := (resolveAll operands store).store.stack } ∧
      store.stack.Loses (poppedValues operands (resolveAll operands store).values)
        (resolveAll operands store).store.stack := by
  induction operands generalizing store with
  | nil => exact ⟨rfl, .refl _⟩
  | cons operand rest ih =>
    rcases operand.resolve_cases store with ⟨value, stack, hzero, hpop, h⟩ | ⟨value, hzero, h⟩ |
      ⟨error, h⟩
    · obtain ⟨hstore, hloses⟩ := ih { store with stack }
      rw [resolveAll_ok h, poppedValues, if_pos hzero]
      exact ⟨hstore, hloses.cons hpop⟩
    · rw [resolveAll_ok h, poppedValues, if_neg hzero]
      exact ih store
    · rw [resolveAll_error h]
      exact ⟨rfl, .refl _⟩

/-! ## The format -/

/-- The two bits of a type. -/
def OperandType.bits : OperandType → Fin 4
  | large => 0
  | small => 1
  | var => 2

/-- The two bits of an operand that is omitted. -/
def omittedBits : Fin 4 := 3

/-- The byte of the first four fields of two bits, the first in the high bits. -/
def packTypes (fields : List (Fin 4)) : UInt8 :=
  .ofNat (64 * (fields.getD 0 0).val + 16 * (fields.getD 1 0).val + 4 * (fields.getD 2 0).val +
    (fields.getD 3 0).val)

/-- An instruction as it is written, without the store and branch bytes behind its operands. -/
inductive Source where
  /-- Two operands whose types are single bits of the opcode; neither can be a word. -/
  | long (number : Fin 32) (first second : { operand : Operand // operand.type ≠ .large })
  /-- At most one operand, with its type in the opcode. -/
  | short (number : Fin 16) (operand? : Option Operand)
  /-- Up to four operands, of the family of two operands or the other, with their types in a byte. Behind
  the first omitted type that byte has arbitrary fields. -/
  | var (two : Bool) (number : Fin 32) (operands : List Operand) (room : operands.length ≤ maxOperands)
    (unused : List (Fin 4))

namespace Source

def form : Source → Form
  | long .. => .long
  | short .. => .short
  | var .. => .var

def count : Source → OperandCount
  | long .. => .two
  | short _ none => .zero
  | short _ (some _) => .one
  | var two .. => if two then .two else .var

def number : Source → UInt8
  | long number .. => .ofNat number
  | short number _ => .ofNat number
  | var _ number .. => .ofNat number

def operands : Source → List Operand
  | long _ first second => [first, second]
  | short _ operand? => operand?.toList
  | var _ _ operands .. => operands

/-- The opcode of a long form: a bit for each operand that is a variable, and the number. -/
def longOpcode (number : Fin 32) (first second : OperandType) : UInt8 :=
  .ofNat ((if first = .var then 0x40 else 0) + (if second = .var then 0x20 else 0) + number.val)

/-- The opcode of a short form: the type of the operand and the number. -/
def shortOpcode (number : Fin 16) (type? : Option OperandType) : UInt8 :=
  .ofNat (0x80 + 16 * (type?.elim omittedBits OperandType.bits).val + number.val)

/-- The opcode of a variable form: two bits for the form, one that is not set in the family of two operands,
and the number. -/
def varOpcode (two : Bool) (number : Fin 32) : UInt8 :=
  .ofNat ((if two then 0xC0 else 0xE0) + number.val)

def opcode : Source → UInt8
  | long number first second => longOpcode number first.val.type second.val.type
  | short number operand? => shortOpcode number (operand?.map Operand.type)
  | var two number .. => varOpcode two number

/-- The fields of a byte of types. -/
def typeFields (byte : UInt8) : List (Fin 4) :=
  [.ofNat 4 (byte >>> 6).toNat, .ofNat 4 (byte >>> 4).toNat, .ofNat 4 (byte >>> 2).toNat,
    .ofNat 4 byte.toNat]

/-- The byte of types, in variable form. -/
def types : Source → List UInt8
  | var _ _ operands _ unused =>
    [packTypes (operands.map (·.type.bits) ++ omittedBits :: unused)]
  | _ => []

/-- The bytes of an instruction. -/
def assemble (source : Source) : List UInt8 :=
  source.opcode :: (source.types ++ source.operands.flatMap Operand.bytes)

/-- The instruction at an address, with values for its first operands. -/
def instruction (source : Source) (pc : UInt32) (values : List UInt16) : Instruction where
  address := pc
  opcode := source.opcode
  form := source.form
  count := source.count
  number := source.number
  operands := Vector.ofFn fun slot => values.getD slot 0
  numOperands := values.length

theorem length_operands (source : Source) : source.operands.length ≤ maxOperands := by
  cases source with
  | long number first second => exact Nat.le_of_ble_eq_true rfl
  | short number operand? => cases operand? <;> exact Nat.le_of_ble_eq_true rfl
  | var two number operands room unused => exact room

/-! ## Opcodes -/

theorem longOpcode_spec (number : Fin 32) (first second : OperandType) :
    Form.ofOpcode (longOpcode number first second) = .long ∧
      OperandCount.ofOpcode (longOpcode number first second) = .two ∧
      Instruction.numberOf (longOpcode number first second) = .ofNat number := by
  revert number
  cases first <;> cases second <;> decide

theorem longOpcode_types (number : Fin 32) {first second : OperandType} (hfirst : first ≠ .large)
    (hsecond : second ≠ .large) :
    OperandType.ofBit (longOpcode number first second &&& 0x40) = first ∧
      OperandType.ofBit (longOpcode number first second &&& 0x20) = second := by
  revert number
  cases first with
  | large => exact absurd rfl hfirst
  | small | var =>
    cases second with
    | large => exact absurd rfl hsecond
    | small | var => decide

theorem shortOpcode_spec (number : Fin 16) (type? : Option OperandType) :
    Form.ofOpcode (shortOpcode number type?) = .short ∧
      OperandCount.ofOpcode (shortOpcode number type?) = (if type?.isNone then .zero else .one) ∧
      Instruction.numberOf (shortOpcode number type?) = .ofNat number ∧
      OperandType.ofBits? (shortOpcode number type? >>> 4) = type? := by
  revert number
  rcases type? with _ | _ | _ | _ <;> decide

theorem varOpcode_spec (two : Bool) (number : Fin 32) :
    Form.ofOpcode (varOpcode two number) = .var ∧
      OperandCount.ofOpcode (varOpcode two number) = (if two then .two else .var) ∧
      Instruction.numberOf (varOpcode two number) = .ofNat number := by
  revert two number
  decide

/-- The bits of the opcode give the form, the family and the number. -/
theorem opcode_spec (source : Source) :
    Form.ofOpcode source.opcode = source.form ∧
      OperandCount.ofOpcode source.opcode = source.count ∧
      Instruction.numberOf source.opcode = source.number := by
  cases source with
  | long number first second => exact longOpcode_spec number _ _
  | short number operand? =>
    obtain ⟨hform, hcount, hnumber, -⟩ := shortOpcode_spec number (operand?.map Operand.type)
    refine ⟨hform, hcount.trans ?_, hnumber⟩
    cases operand? <;> rfl
  | var two number operands room unused => exact varOpcode_spec two number

/-- The first four fields of a byte of types can be read back. -/
theorem ofByte_packTypes (fields : List (Fin 4)) :
    OperandType.ofByte (packTypes fields) =
      OperandType.leading ([0, 1, 2, 3].map fun slot => .ofNat (fields.getD slot 0).val) := by
  unfold packTypes
  simp only [List.map_cons, List.map_nil]
  generalize fields.getD 0 0 = a, fields.getD 1 0 = b, fields.getD 2 0 = c, fields.getD 3 0 = d
  revert a b c d
  decide

theorem ofBits?_bits (type : OperandType) : OperandType.ofBits? (.ofNat type.bits.val) = some type := by
  cases type <;> decide

/-- The first omitted type ends the list, whatever the fields behind it are. -/
theorem ofByte_types (operands : List Operand) (hroom : operands.length ≤ maxOperands)
    (unused : List (Fin 4)) :
    OperandType.ofByte (packTypes (operands.map (·.type.bits) ++ omittedBits :: unused)) =
      operands.map Operand.type := by
  rw [ofByte_packTypes]
  have homitted : OperandType.ofBits? (.ofNat omittedBits.val) = none := by decide
  -- the omitted type is in the byte unless there are four operands
  match operands, hroom with
  | [], _ => simp [OperandType.leading, homitted]
  | [a], _ => simp [OperandType.leading, ofBits?_bits, homitted]
  | [a, b], _ => simp [OperandType.leading, ofBits?_bits, homitted]
  | [a, b, c], _ => simp [OperandType.leading, ofBits?_bits, homitted]
  | [a, b, c, d], _ => simp [OperandType.leading, ofBits?_bits]

/-! ## Operand slots -/

/-- The next value goes into the next slot. -/
theorem addOperand_instruction (source : Source) (pc : UInt32) (done : List UInt16) (value : UInt16)
    (hroom : done.length < maxOperands) :
    (source.instruction pc done).addOperand value = .ok (source.instruction pc (done ++ [value])) := by
  have hslots : (Vector.ofFn fun slot : Fin maxOperands => done.getD slot 0).set done.length value hroom =
      Vector.ofFn fun slot : Fin maxOperands => (done ++ [value]).getD slot 0 := by
    ext i hi
    rw [Vector.getElem_set, Vector.getElem_ofFn, Vector.getElem_ofFn]
    grind
  unfold Instruction.addOperand
  rw [dif_pos (show (source.instruction pc done).numOperands < maxOperands from hroom)]
  simp only [instruction, hslots, List.length_append, List.length_singleton]

end Source

namespace Instruction.Cursor

/-! ## Reading what was assembled -/

section
variable {cursor : Cursor} {rest : List UInt8}
  (hsize : cursor.store.image.bytes.size < 0x100000000)
include hsize

theorem perform_byte {value : UInt8} (h : cursor.store.image.Holds cursor.next (value :: rest)) :
    byte.perform cursor = (.ok value, { cursor with next := cursor.next + 1 }) := by
  rw [byte_eq, perform_reading, h.readByte hsize]

theorem perform_word {value : UInt16}
    (h : cursor.store.image.Holds cursor.next (wordBytes value ++ rest)) :
    word.perform cursor = (.ok value, { cursor with next := cursor.next + 2 }) := by
  rw [word_eq, perform_reading, h.readWord hsize]

/-- Reading an operand resolves it and moves behind its bytes. -/
theorem perform_operand {operand : Operand}
    (h : cursor.store.image.Holds cursor.next (operand.bytes ++ rest)) :
    (Cursor.operand operand.type).perform cursor =
      ((operand.resolve.perform cursor.store).1,
        { cursor with
          store := (operand.resolve.perform cursor.store).2
          next := cursor.next + operand.width }) := by
  cases operand with
  | large value => exact perform_word hsize h
  | small value =>
    change (byte >>= fun value => pure value.toUInt16).perform cursor = _
    rw [Exec.perform_bind_ok (perform_byte hsize h)]
    rfl
  | var number =>
    change (byte >>= variableValue).perform cursor = _
    rw [Exec.perform_bind_ok (perform_byte hsize h), variableValue, Exec.perform_within]
    rfl

/-- The types of the operands are read from the opcode or from the byte behind it. -/
theorem perform_operandTypes (source : Source)
    (h : cursor.store.image.Holds cursor.next (source.types ++ rest)) :
    (operandTypes source.opcode).perform cursor =
      (.ok (source.operands.map Operand.type),
        { cursor with next := cursor.next + .ofNat source.types.length }) := by
  have hstill : { cursor with next := cursor.next + 0 } = cursor := by rw [UInt32.add_zero]
  unfold operandTypes
  rw [source.opcode_spec.1]
  cases source with
  | long number first second =>
    obtain ⟨hfirst, hsecond⟩ := Source.longOpcode_types number first.property second.property
    change (Except.ok [OperandType.ofBit _, OperandType.ofBit _], cursor) =
      (_, { cursor with next := _ + 0 })
    rw [hstill]
    exact congrArg₂ (fun a b => (Except.ok [a, b], cursor)) hfirst hsecond
  | short number operand? =>
    obtain ⟨-, -, -, htype⟩ := Source.shortOpcode_spec number (operand?.map Operand.type)
    change (Except.ok (OperandType.ofBits? (Source.shortOpcode number _ >>> 4)).toList, cursor) =
      (_, { cursor with next := _ + 0 })
    rw [hstill, htype]
    cases operand? <;> rfl
  | var two number operands room unused =>
    change (byte >>= fun value => pure (OperandType.ofByte value)).perform cursor = _
    rw [Exec.perform_bind_ok (perform_byte hsize h), Source.ofByte_types operands room unused]
    rfl

end

section
variable (source : Source) (pc : UInt32) (done : List UInt16) (store : Store) (next : UInt32)

/-- Taking an operand resolves it, puts its value into the next slot, and moves behind its bytes. -/
theorem perform_takeOperand (operand : Operand) (rest : List UInt8) (hroom : done.length < maxOperands)
    (hsize : store.image.bytes.size < 0x100000000)
    (h : store.image.Holds next (operand.bytes ++ rest)) :
    (takeOperand operand.type).perform ⟨store, next, source.instruction pc done⟩ =
      match operand.resolve.perform store with
      | (.ok value, after) =>
        (.ok (), ⟨after, next + operand.width, source.instruction pc (done ++ [value])⟩)
      | (.error error, after) =>
        (.error error, ⟨after, next + operand.width, source.instruction pc done⟩) := by
  have hread : (Cursor.operand operand.type).perform ⟨store, next, source.instruction pc done⟩ =
      ((operand.resolve.perform store).1,
        ⟨(operand.resolve.perform store).2, next + operand.width, source.instruction pc done⟩) :=
    perform_operand hsize h
  unfold takeOperand
  rcases hresolve : operand.resolve.perform store with ⟨error | value, after⟩
  · rw [hresolve] at hread
    rw [Exec.perform_bind_error hread]
  · rw [hresolve] at hread
    rw [Exec.perform_bind_ok hread, Exec.perform_change]
    dsimp only
    rw [source.addOperand_instruction pc done value hroom]
    rfl

/-- Taking operands resolves them from left to right, puts their values into the next slots and, if none
fails, ends behind their bytes. -/
theorem perform_takeOperands (operands : List Operand)
    (hroom : done.length + operands.length ≤ maxOperands)
    (hsize : store.image.bytes.size < 0x100000000)
    (h : store.image.Holds next (operands.flatMap Operand.bytes)) :
    ∃ behind,
      ((resolveAll operands store).failure = none →
        behind.toNat = next.toNat + (operands.flatMap Operand.bytes).length) ∧
      (takeOperands (operands.map Operand.type)).perform ⟨store, next, source.instruction pc done⟩ =
        ((resolveAll operands store).outcome,
          ⟨(resolveAll operands store).store, behind,
            source.instruction pc (done ++ (resolveAll operands store).values)⟩) := by
  induction operands generalizing done store next with
  | nil => exact ⟨next, fun _ => rfl, by rw [resolveAll, List.append_nil]; rfl⟩
  | cons operand rest ih =>
    have hslot : done.length < maxOperands := by
      rw [List.length_cons] at hroom
      omega
    rw [List.flatMap_cons] at h
    have htake := perform_takeOperand source pc done store next operand _ hslot hsize h
    change ∃ behind, _ ∧
      (takeOperand operand.type >>= fun _ => takeOperands (rest.map Operand.type)).perform _ = _
    rcases hresolve : operand.resolve.perform store with ⟨error | value, after⟩
    · rw [hresolve] at htake
      rw [resolveAll_error hresolve, Exec.perform_bind_error htake, List.append_nil]
      exact ⟨next + operand.width, nofun, rfl⟩
    · -- resolving leaves the image alone, so the bytes of the other operands are still there
      have himage : after.image = store.image := by
        have himage := operand.image_resolve store
        rwa [hresolve] at himage
      have hbehind := h.toNat_add hsize operand.width (by rw [operand.toNat_width]; simp)
      have hrest := h.right hsize operand.width operand.toNat_width
      rw [hresolve] at htake
      rw [← himage] at hsize hrest
      have hslots : (done ++ [value]).length + rest.length ≤ maxOperands := by
        simp only [List.length_append, List.length_cons, List.length_nil] at hroom ⊢
        omega
      obtain ⟨behind, hnext, hperform⟩ := ih (done ++ [value]) after (next + operand.width) hslots
        hsize hrest
      rw [resolveAll_ok hresolve, Exec.perform_bind_ok htake, hperform, List.append_assoc]
      refine ⟨behind, fun hnone => ?_, rfl⟩
      rw [hnext hnone, hbehind, operand.toNat_width, List.flatMap_cons, List.length_append,
        Nat.add_assoc]

/-- Reading an assembled instruction resolves its operands and, if none fails, ends behind its bytes. -/
theorem perform_assemble (hsize : store.image.bytes.size < 0x100000000)
    (h : store.image.Holds pc source.assemble) :
    ∃ behind,
      ((resolveAll source.operands store).failure = none →
        behind.toNat = pc.toNat + source.assemble.length) ∧
      instructionHere.perform ⟨store, pc, { address := pc }⟩ =
        ((resolveAll source.operands store).outcome,
          ⟨(resolveAll source.operands store).store, behind,
            source.instruction pc (resolveAll source.operands store).values⟩) := by
  have hlength : (UInt32.ofNat source.types.length).toNat = source.types.length := by
    cases source <;> rfl
  have hopcode : source.assemble =
      [source.opcode] ++ (source.types ++ source.operands.flatMap Operand.bytes) := rfl
  rw [hopcode] at h
  have hroom : ([] : List UInt16).length + source.operands.length ≤ maxOperands := by
    rw [List.length_nil, Nat.zero_add]
    exact source.length_operands
  have htypes := h.right hsize 1 rfl
  have hoperands := htypes.right hsize _ hlength
  obtain ⟨behind, hbehind, hperform⟩ := perform_takeOperands source pc [] store _
    source.operands hroom hsize hoperands
  refine ⟨behind, fun hnone => ?_, ?_⟩
  · have hone := h.toNat_add hsize 1 (by simp)
    have hnext := htypes.toNat_add hsize (.ofNat source.types.length) (by rw [hlength]; simp)
    rw [hbehind hnone, hnext, hone, hlength, hopcode]
    simp only [List.length_append, List.length_singleton, UInt32.toNat_one]
    omega
  · rw [perform_instructionHere, h.readByte hsize]
    have hbegun : begun pc store source.opcode = ⟨store, pc + 1, source.instruction pc []⟩ := by
      obtain ⟨hform, hcount, hnumber⟩ := source.opcode_spec
      unfold begun Source.instruction
      rw [hform, hcount, hnumber]
      rfl
    have htake : (operandTypes source.opcode).perform ⟨store, pc + 1, source.instruction pc []⟩ =
        (.ok (source.operands.map Operand.type),
          ⟨store, pc + 1 + .ofNat source.types.length, source.instruction pc []⟩) :=
      perform_operandTypes hsize source htypes
    dsimp only
    rw [hbegun, Exec.perform_bind_ok htake, hperform, List.nil_append]

end

end Instruction.Cursor

/-! ## Decoding what was assembled -/

namespace Instruction

section
variable (source : Source) (pc : UInt32) (store : Store)

theorem decode_eq_resolveAll (hsize : store.image.bytes.size < 0x100000000)
    (h : store.image.Holds pc source.assemble) :
    ∃ next,
      ((resolveAll source.operands store).failure = none →
        next.toNat = pc.toNat + source.assemble.length) ∧
      ((resolveAll source.operands store).failure ≠ none → next = pc) ∧
      decode pc store =
        (⟨source.instruction pc (resolveAll source.operands store).values, next,
          (resolveAll source.operands store).failure⟩, (resolveAll source.operands store).store) := by
  obtain ⟨behind, hbehind, hperform⟩ := Cursor.perform_assemble source pc store hsize h
  unfold decode
  rw [hperform]
  unfold Resolution.outcome
  cases hfailure : (resolveAll source.operands store).failure with
  | none => exact ⟨behind, fun _ => hbehind hfailure, nofun, rfl⟩
  | some error => exact ⟨pc, nofun, fun _ => rfl, rfl⟩

/-- **Decoding inverts assembling.** It gives the form, the family and the number of the instruction, and
its operands resolved from left to right. If none fails, the slots hold their values and the address is
behind the instruction; if one fails, they hold the values before it and the address is the instruction's.
The stack loses the popped values, and nothing else changes. So an instruction of two operands decodes
alike in long form and in variable form. -/
theorem decode_assemble (hsize : store.image.bytes.size < 0x100000000)
    (h : store.image.Holds pc source.assemble) :
    let resolution := resolveAll source.operands store
    let decoded := (decode pc store).1
    let after := (decode pc store).2
    decoded.instruction = source.instruction pc resolution.values ∧
    decoded.failure = resolution.failure ∧
    (decoded.failure = none →
      resolution.values.length = source.operands.length ∧
      decoded.next.toNat = pc.toNat + source.assemble.length) ∧
    (∀ error, decoded.failure = some error →
      decoded.next = pc ∧
      ∃ before operand rest, source.operands = before ++ operand :: rest ∧
        resolveAll before store = ⟨resolution.values, none, after⟩ ∧
        operand.resolve.perform after = (.error error, after)) ∧
    after = { store with stack := after.stack } ∧
    store.stack.Loses (poppedValues source.operands resolution.values) after.stack ∧
    ∀ number first second room unused other, source = .long number first second →
      store.image.Holds other (Source.var true number [first, second] room unused).assemble →
      (decode other store).1.instruction = { decoded.instruction with
          address := other
          opcode := Source.varOpcode true number
          form := .var } ∧
        (decode other store).1.failure = decoded.failure ∧ (decode other store).2 = after := by
  obtain ⟨next, hnext, hstill, hdecode⟩ := decode_eq_resolveAll source pc store hsize h
  obtain ⟨hstore, hloses⟩ := resolveAll_loses source.operands store
  rw [hdecode]
  refine ⟨rfl, rfl, fun hnone => ?_, fun error herror => ?_, hstore, hloses, ?_⟩
  · exact ⟨length_of_resolveAll hnone, hnext hnone⟩
  · change (resolveAll source.operands store).failure = some error at herror
    exact ⟨hstill (by rw [herror]; nofun), exists_of_resolveAll_failure herror⟩
  · rintro number first second room unused other rfl hother
    obtain ⟨behind, -, -, hvar⟩ := decode_eq_resolveAll _ other store hsize hother
    rw [hvar]
    exact ⟨rfl, rfl, rfl⟩

end

/-- A subtraction of two popped words in long form. -/
def subSample : Source :=
  .long 0x15 ⟨.var 0, by decide⟩ ⟨.var 0, by decide⟩

/-- The words on the stack, and an image that holds the subtraction in long and in variable form. -/
def storeSample (words : Array UInt16) : Store where
  image := {
    header := Header.parse #[]
    bytes := (subSample.assemble ++
      (Source.var true 0x15 [.var 0, .var 0] (by decide) [1]).assemble).toArray
    pristine := #[] }
  stack := { Stack.empty 0 with values := words }
  calls := .empty 0

theorem decode_assemble_sample :
    (decode 0 (storeSample #[7, 3])).1.instruction = subSample.instruction 0 [3, 7] ∧
      (decode 0 (storeSample #[7, 3])).1.next.toNat = 3 ∧
      (decode 3 (storeSample #[7, 3])).2 = (decode 0 (storeSample #[7, 3])).2 ∧
      (decode 0 (storeSample #[7])).1.instruction = subSample.instruction 0 [7] ∧
      (decode 0 (storeSample #[7])).1.failure = some .popEmpty ∧
      (decode 0 (storeSample #[7])).1.next = 0 := by
  have hvalues : (resolveAll subSample.operands (storeSample #[7, 3])).values = [3, 7] := by decide
  have hnone : (resolveAll subSample.operands (storeSample #[7, 3])).failure = none := by decide
  have hvalue : (resolveAll subSample.operands (storeSample #[7])).values = [7] := by decide
  have hempty : (resolveAll subSample.operands (storeSample #[7])).failure = some .popEmpty := by decide
  obtain ⟨hpair, hall, hnext, -, -, -, hvar⟩ :=
    decode_assemble subSample 0 (storeSample #[7, 3]) (by decide) (by decide)
  obtain ⟨hone, hfailed, -, hstill, -⟩ :=
    decode_assemble subSample 0 (storeSample #[7]) (by decide) (by decide)
  rw [hvalues] at hpair
  rw [hvalue] at hone
  rw [hnone] at hall
  rw [hempty] at hfailed
  exact ⟨hpair, (hnext hall).2, (hvar _ _ _ (by decide) [1] 3 rfl (by decide)).2.2, hone, hfailed,
    (hstill _ hfailed).1⟩

end Instruction

end StoryMachine
