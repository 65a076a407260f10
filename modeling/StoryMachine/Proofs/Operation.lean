import StoryMachine.Machine.Execute
import StoryMachine.Proofs.Agreement

/-!
# What operations are made of

Nearly every operation is put together from a few steps: it reads bytes behind the instruction, works
on the store, looks at the image, prints, draws a random number, and goes on, jumps or returns.

* `Operation.ordinary` : all operations but reading a line, calling a routine and restarting;
* `Machine.Closed Plain Whole` : two properties of steps that hold of these pieces, where only a `Whole`
  step may end by leaving a routine or quitting;
* `Machine.Closed.operate` : what is closed in this way holds of every ordinary operation. The walk over
  the operations is done here once, and each law of instructions names the pieces only.
-/

namespace StoryMachine

/-- An operation that neither asks for input nor enters a routine or starts the story over. -/
def Operation.ordinary : Operation → Bool
  | readLine | call | restart => false
  | _ => true

namespace Machine

variable {G S : Type} [Generator G] [Sink S]

/-- Properties of steps that are closed under what ordinary operations do. -/
structure Closed (Plain : ∀ {α : Type}, Exec (Machine G S) α → Prop)
    (Whole : Exec (Machine G S) Unit → Prop) : Prop where
  pure {α : Type} (value : α) : Plain (Pure.pure value)
  throw {α : Type} {error : Error} (h : error.operational) :
    Plain (MonadExcept.throw error : Exec (Machine G S) α)
  bind {α β : Type} {step : Exec (Machine G S) α} {next : α → Exec (Machine G S) β} (h : Plain step)
    (hnext : ∀ value, Plain (next value)) : Plain (step >>= next)
  onStore {α : Type} {step : Exec Store α} (h : step.Obeys Store.law) (hblind : Store.Blind step) :
    Plain (Machine.onStore step)
  look {α : Type} {read : Image → Except Error α}
    (h : ∀ image, image.WellFormed → Guarded (read image)) :
    Plain (Exec.query fun machine : Machine G S => read machine.image)
  nextByte : Plain (Machine.nextByte : Exec (Machine G S) UInt8)
  jump (offset : Int) : Plain (do jumpTo ((← get).pc.toNat + offset - 2) : Exec (Machine G S) Unit)
  print (text : List UInt8) : Plain (Machine.print text : Exec (Machine G S) Unit)
  printString (address : UInt32) : Plain (Machine.printString address : Exec (Machine G S) Unit)
  printObject (object : UInt16) : Plain (Machine.printObject object : Exec (Machine G S) Unit)
  printInline : Plain (Machine.printInline : Exec (Machine G S) Unit)
  draw (range : Int) : Plain (Machine.draw range : Exec (Machine G S) UInt16)
  quit : Whole (modify fun machine => { machine with done := true })
  whole {step : Exec (Machine G S) Unit} (h : Plain step) : Whole step
  last {α : Type} {step : Exec (Machine G S) α} {next : α → Exec (Machine G S) Unit} (h : Plain step)
    (hnext : ∀ value, Whole (next value)) : Whole (step >>= next)
  returnValue (value : UInt16) : Whole (Machine.returnValue value)

namespace Closed

variable {Plain : ∀ {α : Type}, Exec (Machine G S) α → Prop} {Whole : Exec (Machine G S) Unit → Prop}
  (h : Closed @Plain Whole)
include h

theorem discard {α : Type} {step : Exec (Machine G S) α} (hstep : Plain step) :
    Plain (Functor.discard step) := by
  rw [Functor.discard, map_const]
  change Plain (Function.const α PUnit.unit <$> step)
  rw [← bind_pure_comp]
  exact h.bind hstep fun _ => h.pure _

theorem storeResult (value : UInt16) : Plain (Machine.storeResult value : Exec (Machine G S) Unit) :=
  h.bind h.nextByte fun number => h.onStore (Store.obeys_write number value) (Store.blind_write number value)

theorem nextBranch : Plain (Machine.nextBranch : Exec (Machine G S) Branch) := by
  refine h.bind h.nextByte ?_
  intro first
  dsimp only
  split
  · exact h.bind h.nextByte fun _ => h.pure _
  · exact h.pure _

/-- A branch jumps, goes on, or returns. -/
theorem branch (condition : Bool) : Whole (Machine.branch condition : Exec (Machine G S) Unit) := by
  refine h.last h.nextBranch ?_
  intro branch
  split
  · split
    · exact h.returnValue 0
    · split
      · exact h.returnValue 1
      · exact h.whole (h.jump branch.offset)
  · exact h.whole (h.pure ())

theorem branchOn {condition : Image → Except Error Bool}
    (hcondition : ∀ image, image.WellFormed → Guarded (condition image)) :
    Whole (Machine.branchOn condition : Exec (Machine G S) Unit) :=
  h.last (h.look hcondition) fun holds => h.branch holds

theorem storeFrom {value : Image → Except Error UInt16}
    (hvalue : ∀ image, image.WellFormed → Guarded (value image)) :
    Whole (Machine.storeFrom value : Exec (Machine G S) Unit) :=
  h.whole (h.bind (h.look hvalue) fun result => h.storeResult result)

theorem storeAndBranch {value : Image → Except Error UInt16}
    (hvalue : ∀ image, image.WellFormed → Guarded (value image)) :
    Whole (Machine.storeAndBranch value : Exec (Machine G S) Unit) :=
  h.last (h.look hvalue) fun result => h.last (h.storeResult result) fun _ => h.branch _

theorem pop : Plain (Machine.onStore Store.pop : Exec (Machine G S) UInt16) :=
  h.onStore Store.obeys_pop Store.blind_pop

theorem replace (number : UInt8) (value : UInt16) :
    Plain (Machine.onStore (Store.replace number value) : Exec (Machine G S) Unit) :=
  h.onStore (Store.obeys_replace number value) (Store.blind_replace number value)

theorem addTo (operand delta : UInt16) :
    Plain (Machine.addTo operand delta : Exec (Machine G S) UInt16) :=
  h.onStore (Store.obeys_add operand.toUInt8 delta) (Store.blind_add operand.toUInt8 delta)

theorem divide {divisor : UInt16} (result : UInt16) :
    Whole (do
      if divisor = 0 then MonadExcept.throw Error.zeroDivisor
      Machine.storeResult result : Exec (Machine G S) Unit) := by
  split
  · exact h.whole (h.bind (h.throw rfl) fun _ => h.storeResult result)
  · exact h.whole (h.storeResult result)

/-- **What is closed under the pieces holds of every ordinary operation.** -/
theorem operate {operation : Operation} (hoperation : operation.ordinary) {instruction : Instruction}
    (hinstruction : instruction.WellFormed) :
    Whole (Machine.operate operation instruction : Exec (Machine G S) Unit) := by
  unfold Machine.operate
  cases operation with
  | readLine => cases hoperation
  | call => cases hoperation
  | restart => cases hoperation
  | returnTrue => exact h.returnValue 1
  | returnFalse => exact h.returnValue 0
  | print => exact h.whole h.printInline
  | printReturn =>
    exact h.last h.printInline fun _ => h.last (h.print _) fun _ => h.returnValue 1
  | nop => exact h.whole (h.pure ())
  | save => exact h.branch false
  | restore => exact h.branch false
  | returnPopped => exact h.last h.pop fun value => h.returnValue value
  | pop => exact h.whole (h.discard h.pop)
  | quit => exact h.quit
  | newLine => exact h.whole (h.print _)
  | showStatus => exact h.whole (h.pure ())
  | verify =>
    dsimp only
    exact h.branchOn fun _ _ => .ok _
  | jumpZero => exact h.branch _
  | getSibling => exact h.storeAndBranch fun _ hi => Object.entryByte_guarded hi _ _
  | getChild => exact h.storeAndBranch fun _ hi => Object.entryByte_guarded hi _ _
  | getParent => exact h.storeFrom fun _ hi => Object.entryByte_guarded hi _ _
  | getPropertyLength => exact h.storeFrom fun _ hi => Object.propertyLength_guarded hi _
  | increment => exact h.whole (h.discard (h.addTo _ _))
  | decrement => exact h.whole (h.discard (h.addTo _ _))
  | printAddress => exact h.whole (h.printString _)
  | printObject => exact h.whole (h.printObject _)
  | returnOperand => exact h.returnValue _
  | jump => exact h.whole (h.jump _)
  | printPacked => exact h.whole (h.printString _)
  | load =>
    refine h.whole (h.bind (h.onStore (Store.obeys_peek _) (Store.blind_peek _)) ?_)
    exact fun value => h.storeResult value
  | not => exact h.whole (h.storeResult _)
  | jumpEqual =>
    dsimp only
    rw [hinstruction.checkArguments]
    exact h.branch _
  | jumpLess => exact h.branch _
  | jumpGreater => exact h.branch _
  | decrementCheck => exact h.last (h.addTo _ _) fun _ => h.branch _
  | incrementCheck => exact h.last (h.addTo _ _) fun _ => h.branch _
  | jumpIn => exact h.branchOn fun _ hi => Object.isInside_guarded hi _ _
  | test => exact h.branch _
  | or => exact h.whole (h.storeResult _)
  | and => exact h.whole (h.storeResult _)
  | testAttribute => exact h.branchOn fun _ hi => Object.hasAttribute_guarded hi _ _
  | store => exact h.whole (h.replace _ _)
  | loadWord => exact h.storeFrom fun _ hi => Image.readWord_guarded hi _
  | loadByte =>
    refine h.storeFrom ?_
    intro _ hi
    exact .bind (Image.readByte_guarded hi _) fun _ _ => .pure _
  | getProperty => exact h.storeFrom fun _ hi => Object.propertyValue_guarded hi _ _
  | getPropertyAddress => exact h.storeFrom fun _ hi => Object.propertyAddress_guarded hi _ _
  | getNextProperty => exact h.storeFrom fun _ hi => Object.nextProperty_guarded hi _ _
  | add => exact h.whole (h.storeResult _)
  | subtract => exact h.whole (h.storeResult _)
  | multiply => exact h.whole (h.storeResult _)
  | divide => exact h.divide _
  | remainder => exact h.divide _
  | storeWord => exact h.whole (h.onStore (Store.obeys_writeWord _ _) (Store.blind_changeImage _))
  | storeByte => exact h.whole (h.onStore (Store.obeys_writeByte _ _) (Store.blind_changeImage _))
  | printChar =>
    dsimp only
    split
    · exact h.whole (h.pure ())
    · exact h.whole (h.print _)
  | printNumber => exact h.whole (h.print _)
  | random => exact h.whole (h.bind (h.draw _) fun value => h.storeResult value)
  | push => exact h.whole (h.onStore (Store.obeys_push _) (Store.blind_push _))
  | pull =>
    exact h.whole (h.bind h.pop fun value => h.replace _ value)

end Closed

end Machine

end StoryMachine
