import StoryMachine.Proofs.Decode

/-!
# Steps that cannot tell two states apart

* `Exec.Matches Same Excused` : two outcomes have the same result and states that look the same, or one
  of them is a failure with an excused error;
* `Exec.Agrees Same Excused step` : from states that look the same the step has outcomes that match;
  closed under `pure`, `>>=` and steps on a part of the state;
* `Stack.SameWords`, `Store.SameWords` : nothing but the cells above the top of the stack differs. Reading
  and writing variables cannot tell such stores apart (`Store.Blind`), and neither can leaving a routine
  whose floor is not above the top (`SameWords.leave`);
* `decode_sameWords` : the same instruction is decoded from such stores.
-/

namespace StoryMachine

/-! ## Steps from two states -/

namespace Exec

variable {σ τ α β : Type}

/-- Two outcomes look the same, unless one of them is an excused failure. -/
inductive Matches (Same : σ → σ → Prop) (Excused : Error → Prop) :
    Except Error α × σ → Except Error α × σ → Prop
  | same {result : Except Error α} {s t : σ} (h : Same s t) :
      Matches Same Excused (result, s) (result, t)
  | left {error : Error} {s : σ} {outcome : Except Error α × σ} (h : Excused error) :
      Matches Same Excused (.error error, s) outcome
  | right {error : Error} {outcome : Except Error α × σ} {t : σ} (h : Excused error) :
      Matches Same Excused outcome (.error error, t)

/-- From states that look the same, the step has outcomes that match. -/
def Agrees (Same : σ → σ → Prop) (Excused : Error → Prop) (step : Exec σ α) : Prop :=
  ∀ s t, Same s t → Matches Same Excused (step.perform s) (step.perform t)

/-- Two results are the same error, or values that look the same. -/
inductive Paired (Same : σ → σ → Prop) : Except Error σ → Except Error σ → Prop
  | ok {s t : σ} (h : Same s t) : Paired Same (.ok s) (.ok t)
  | error (error : Error) : Paired Same (.error error) (.error error)

namespace Agrees

variable {Same : σ → σ → Prop} {Excused : Error → Prop}

theorem pure (value : α) : Agrees Same Excused (Pure.pure value : Exec σ α) :=
  fun _ _ h => .same h

theorem throw (error : Error) : Agrees Same Excused (MonadExcept.throw error : Exec σ α) :=
  fun _ _ h => .same h

theorem ofExcept (result : Except Error α) : Agrees Same Excused (Exec.ofExcept result) := by
  intro s t h
  rw [perform_ofExcept, perform_ofExcept]
  exact .same h

theorem query {read : σ → Except Error α} (hread : ∀ s t, Same s t → read s = read t) :
    Agrees Same Excused (Exec.query read) := by
  intro s t h
  rw [perform_query, perform_query, hread s t h]
  exact .same h

theorem modify {update : σ → σ} (hupdate : ∀ s t, Same s t → Same (update s) (update t)) :
    Agrees Same Excused (modify update : Exec σ PUnit) := by
  intro s t h
  rw [perform_modify, perform_modify]
  exact .same (hupdate s t h)

theorem change {update : σ → Except Error σ}
    (hupdate : ∀ s t, Same s t → Paired Same (update s) (update t)) :
    Agrees Same Excused (Exec.change update) := by
  intro s t h
  have hpaired := hupdate s t h
  rw [perform_change, perform_change]
  generalize update s = after at hpaired ⊢
  generalize update t = after' at hpaired ⊢
  cases hpaired with
  | ok h' => exact .same h'
  | error e => exact .same h

theorem bind {step : Exec σ α} {next : α → Exec σ β} (h : Agrees Same Excused step)
    (hnext : ∀ value, Agrees Same Excused (next value)) : Agrees Same Excused (step >>= next) := by
  intro s t hst
  have hmatches := h s t hst
  rcases hs : step.perform s with ⟨result, s'⟩
  rcases ht : step.perform t with ⟨result', t'⟩
  rw [hs, ht] at hmatches
  cases hmatches with
  | same h' =>
    cases result with
    | error e =>
      rw [perform_bind_error hs, perform_bind_error ht]
      exact .same h'
    | ok value =>
      rw [perform_bind_ok hs, perform_bind_ok ht]
      exact hnext value s' t' h'
  | left he =>
    rw [perform_bind_error hs]
    exact .left he
  | right he =>
    rw [perform_bind_error ht]
    exact .right he

/-- A step that may look at the state it starts from. -/
theorem getting {next : σ → Exec σ α}
    (h : ∀ s t, Same s t → Matches Same Excused ((next s).perform s) ((next t).perform t)) :
    Agrees Same Excused (get >>= next) := by
  intro s t hst
  rw [perform_bind_ok (perform_get s), perform_bind_ok (perform_get t)]
  exact h s t hst

/-- A step on a part of the state, where the parts of states that look the same do so too. -/
theorem within {Part : τ → τ → Prop} {part : σ → τ} {replace : σ → τ → σ} {step : Exec τ α}
    (h : Agrees Part (fun _ => False) step) (hpart : ∀ s t, Same s t → Part (part s) (part t))
    (hreplace : ∀ s t u v, Same s t → Part u v → Same (replace s u) (replace t v)) :
    Agrees Same Excused (step.within part replace) := by
  intro s t hst
  have hmatches := h (part s) (part t) (hpart s t hst)
  rw [perform_within, perform_within]
  generalize step.perform (part s) = outcome at hmatches ⊢
  generalize step.perform (part t) = outcome' at hmatches ⊢
  cases hmatches with
  | same h' => exact .same (hreplace s t _ _ hst h')
  | left he => exact he.elim
  | right he => exact he.elim

/-- A step that sees all of the state. -/
theorem eq (step : Exec σ α) : Agrees Eq Excused step := by
  rintro s _ rfl
  exact .same rfl

/-- A step that obeys a law leaves a good state good. -/
theorem good {law : Law σ} {step : Exec σ α} (hobeys : step.Obeys law)
    (h : Agrees Same Excused step) :
    Agrees (fun s t => law.Good s ∧ Same s t) Excused step := by
  rintro s t ⟨hgood, hst⟩
  have hgood' := hobeys.good hgood
  have hmatches := h s t hst
  generalize step.perform s = outcome at hgood' hmatches ⊢
  generalize step.perform t = outcome' at hmatches ⊢
  cases hmatches with
  | same h' => exact .same ⟨hgood', h'⟩
  | left he => exact .left he
  | right he => exact .right he

end Agrees

end Exec

open Exec (Agrees Paired)

/-! ## Stacks that differ above the top -/

namespace Stack

/-- The stacks differ in nothing but the cells above the top. -/
structure SameWords (stack other : Stack) : Prop where
  values_eq : stack.values = other.values
  capacity_eq : stack.capacity = other.capacity
  floor_eq : stack.floor = other.floor

variable {stack other : Stack}

theorem SameWords.size_eq (h : SameWords stack other) : stack.size = other.size := by
  rw [size, size, h.values_eq]

theorem SameWords.top_eq (h : SameWords stack other) (ifEmpty : Error) :
    stack.top ifEmpty = other.top ifEmpty := by
  rw [top, top, h.size_eq, h.floor_eq, h.values_eq]

theorem SameWords.push (h : SameWords stack other) (value : UInt16) :
    Paired SameWords (stack.push value) (other.push value) := by
  unfold Stack.push
  rw [h.size_eq, h.capacity_eq]
  split
  · exact .error _
  · refine .ok ⟨?_, rfl, h.floor_eq⟩
    rw [h.values_eq]

theorem SameWords.replaceTop (h : SameWords stack other) (value : UInt16) :
    Paired SameWords (stack.replaceTop value) (other.replaceTop value) := by
  unfold Stack.replaceTop
  rw [h.top_eq]
  cases other.top .replaceEmpty with
  | error e => exact .error e
  | ok top =>
    refine .ok ⟨?_, h.capacity_eq, h.floor_eq⟩
    rw [h.values_eq]

/-- The same word is popped, or none. -/
theorem SameWords.pop (h : SameWords stack other) :
    (∃ error, stack.pop = .error error ∧ other.pop = .error error) ∨
      ∃ value after after', stack.pop = .ok (value, after) ∧ other.pop = .ok (value, after') ∧
        SameWords after after' := by
  unfold Stack.pop
  rw [h.top_eq]
  cases other.top .popEmpty with
  | error e => exact .inl ⟨e, rfl, rfl⟩
  | ok value =>
    refine .inr ⟨value, _, _, rfl, rfl, ?_, h.capacity_eq, h.floor_eq⟩
    rw [h.values_eq]

theorem SameWords.enter (h : SameWords stack other) : SameWords stack.enter other.enter :=
  ⟨h.values_eq, h.capacity_eq, by rw [Stack.enter, Stack.enter, h.size_eq]⟩

/-- Putting the top back to a floor that is not above it brings no cell back. -/
theorem SameWords.leave (h : SameWords stack other) (hnonneg : 0 ≤ stack.floor)
    (hfloor : stack.floor ≤ stack.size) (saved : Int) :
    ∃ after after', stack.leave saved = .ok after ∧ other.leave saved = .ok after' ∧
      SameWords after after' := by
  have hfloor' : other.floor ≤ other.size := by rwa [← h.floor_eq, ← h.size_eq]
  obtain ⟨after, hleave⟩ := exists_leave hnonneg hfloor saved
  obtain ⟨after', hleave'⟩ := exists_leave (h.floor_eq ▸ hnonneg) hfloor' saved
  obtain ⟨-, hvalues, hcapacity, hsaved⟩ := of_leave hleave hfloor
  obtain ⟨-, hvalues', hcapacity', hsaved'⟩ := of_leave hleave' hfloor'
  refine ⟨after, after', hleave, hleave', ?_, ?_, ?_⟩
  · rw [hvalues, hvalues', h.values_eq, h.floor_eq]
  · rw [hcapacity, hcapacity', h.capacity_eq]
  · rw [hsaved, hsaved']

theorem values_clear (stack : Stack) : stack.clear.values = #[] := by
  simp [clear, moveTop]

theorem SameWords.clear (h : SameWords stack other) : SameWords stack.clear other.clear :=
  ⟨by rw [values_clear, values_clear], h.capacity_eq, rfl⟩

end Stack

/-! ## Stores that differ above the top -/

namespace Store

/-- The stores differ in nothing but the cells above the top of the stack. -/
structure SameWords (store other : Store) : Prop where
  image_eq : store.image = other.image
  stack : store.stack.SameWords other.stack
  calls_eq : store.calls = other.calls

theorem SameWords.wellFormed {store other : Store} (h : SameWords store other)
    (hgood : store.WellFormed) : other.WellFormed := by
  have hfloors : other.floors = store.floors := by
    rw [floors, floors, h.calls_eq, h.stack.floor_eq]
  refine ⟨h.image_eq ▸ hgood.image, ?_, ?_, ?_, ?_, h.calls_eq ▸ hgood.depth_le,
    h.calls_eq ▸ hgood.locals_le⟩
  · rw [hfloors]
    exact hgood.floors_start
  · rw [hfloors]
    exact hgood.floors_sorted
  · rw [← h.stack.floor_eq, ← h.stack.size_eq]
    exact hgood.floor_le
  · rw [← h.stack.size_eq, ← h.stack.capacity_eq]
    exact hgood.size_le

/-- A step that does not see the cells above the top. -/
def Blind {α : Type} (step : Exec Store α) : Prop :=
  step.Agrees SameWords fun _ => False

theorem blind_changeStack {update : Stack → Except Error Stack}
    (h : ∀ {stack other : Stack}, stack.SameWords other →
      Paired Stack.SameWords (update stack) (update other)) : Blind (changeStack update) := by
  refine .change ?_
  intro store other hsame
  have hpaired := h hsame.stack
  generalize update store.stack = after at hpaired ⊢
  generalize update other.stack = after' at hpaired ⊢
  cases hpaired with
  | ok hstack => exact .ok ⟨hsame.image_eq, hstack, hsame.calls_eq⟩
  | error e => exact .error e

theorem blind_changeImage (update : Image → Except Error Image) : Blind (changeImage update) := by
  refine .change ?_
  intro store other hsame
  rw [hsame.image_eq]
  cases update other.image with
  | error e => exact .error e
  | ok image => exact .ok ⟨rfl, hsame.stack, hsame.calls_eq⟩

theorem blind_pop : Blind pop := by
  intro store other hsame
  rw [perform_pop, perform_pop]
  rcases hsame.stack.pop with ⟨error, hpop, hpop'⟩ | ⟨value, after, after', hpop, hpop', hstack⟩
  · rw [hpop, hpop']
    exact .same hsame
  · rw [hpop, hpop']
    exact .same ⟨hsame.image_eq, hstack, hsame.calls_eq⟩

theorem blind_push (value : UInt16) : Blind (push value) :=
  blind_changeStack fun h => h.push value

theorem blind_readLocal (number : UInt8) : Blind (readLocal number) :=
  .query fun _ _ h => by rw [h.calls_eq]

theorem blind_writeLocal (number : UInt8) (value : UInt16) : Blind (writeLocal number value) := by
  refine .change ?_
  intro store other hsame
  dsimp only
  rw [hsame.calls_eq]
  cases other.calls.top? with
  | none => exact .error _
  | some frame =>
    dsimp only
    cases frame.writeLocal number.toNat value with
    | error e => exact .error e
    | ok changed => exact .ok ⟨hsame.image_eq, hsame.stack, rfl⟩

theorem blind_readGlobal (number : UInt8) : Blind (readGlobal number) := by
  unfold readGlobal
  split
  · exact .throw _
  · exact .query fun _ _ h => by rw [h.image_eq]

theorem blind_writeGlobal (number : UInt8) (value : UInt16) : Blind (writeGlobal number value) := by
  unfold writeGlobal
  split
  · exact .throw _
  · exact blind_changeImage _

theorem blind_read (number : UInt8) : Blind (read number) := by
  unfold read
  split
  · exact blind_pop
  · split
    · exact blind_readLocal number
    · exact blind_readGlobal number

theorem blind_write (number : UInt8) (value : UInt16) : Blind (write number value) := by
  unfold write
  split
  · exact blind_push value
  · split
    · exact blind_writeLocal number value
    · exact blind_writeGlobal number value

theorem blind_peek (number : UInt8) : Blind (peek number) := by
  unfold peek
  split
  · exact .query fun _ _ h => h.stack.top_eq _
  · exact blind_read number

theorem blind_replace (number : UInt8) (value : UInt16) : Blind (replace number value) := by
  unfold replace
  split
  · exact blind_changeStack fun h => h.replaceTop value
  · exact blind_write number value

theorem blind_add (number : UInt8) (delta : UInt16) : Blind (add number delta) :=
  .bind (blind_peek number) fun _ => .bind (blind_replace number _) fun _ => .pure _

end Store

/-! ## Decoding -/

namespace Instruction

namespace Cursor

/-- The decodings differ in nothing but the cells above the top of the stack. -/
structure SameWords (cursor other : Cursor) : Prop where
  store : cursor.store.SameWords other.store
  next_eq : cursor.next = other.next
  instruction_eq : cursor.instruction = other.instruction

/-- A step that does not see the cells above the top. -/
def Blind {α : Type} (step : Exec Cursor α) : Prop :=
  step.Agrees SameWords fun _ => False

theorem blind_reading {α : Type} (read : Image → UInt32 → Except Error α) (width : UInt32) :
    Blind (reading read width) := by
  refine .bind (.query ?_) fun _ => .bind (.modify ?_) fun _ => .pure _
  · intro cursor other h
    rw [h.store.image_eq, h.next_eq]
  · intro cursor other h
    exact ⟨h.store, by rw [h.next_eq], h.instruction_eq⟩

theorem blind_variableValue (number : UInt8) : Blind (variableValue number) :=
  .within (Store.blind_read number) (fun _ _ h => h.store) fun _ _ _ _ h hstore =>
    ⟨hstore, h.next_eq, h.instruction_eq⟩

theorem blind_operand (type : OperandType) : Blind (operand type) := by
  cases type with
  | large => exact blind_reading Image.readWord 2
  | small => exact .bind (blind_reading Image.readByte 1) fun _ => .pure _
  | var => exact .bind (blind_reading Image.readByte 1) blind_variableValue

theorem blind_takeOperand (type : OperandType) : Blind (takeOperand type) := by
  refine .bind (blind_operand type) fun value => .change ?_
  intro cursor other h
  rw [h.instruction_eq]
  cases other.instruction.addOperand value with
  | error e => exact .error e
  | ok filled => exact .ok ⟨h.store, h.next_eq, rfl⟩

theorem blind_takeOperands (types : List OperandType) : Blind (takeOperands types) := by
  induction types with
  | nil => exact .pure ()
  | cons type rest ih => exact .bind (blind_takeOperand type) fun _ => ih

theorem blind_operandTypes (opcode : UInt8) : Blind (operandTypes opcode) := by
  unfold operandTypes
  cases Form.ofOpcode opcode with
  | long => exact .pure _
  | short => exact .pure _
  | var => exact .bind (blind_reading Image.readByte 1) fun _ => .pure _

theorem blind_instructionHere : Blind instructionHere := by
  refine .bind (blind_reading Image.readByte 1) fun opcode => .bind (.modify ?_) fun _ => ?_
  · intro cursor other h
    exact ⟨h.store, h.next_eq, by rw [h.instruction_eq]⟩
  · exact .bind (blind_operandTypes opcode) blind_takeOperands

end Cursor

/-- The same instruction is decoded, with the same failure if any, and the same words are popped. -/
theorem decode_sameWords (pc : UInt32) {store other : Store} (h : store.SameWords other) :
    (decode pc store).1 = (decode pc other).1 ∧
      (decode pc store).2.SameWords (decode pc other).2 := by
  have hmatches := Cursor.blind_instructionHere ⟨store, pc, { address := pc }⟩
    ⟨other, pc, { address := pc }⟩ ⟨h, rfl, rfl⟩
  unfold decode
  generalize Cursor.instructionHere.perform ⟨store, pc, { address := pc }⟩ = outcome at hmatches ⊢
  generalize Cursor.instructionHere.perform ⟨other, pc, { address := pc }⟩ = outcome' at hmatches ⊢
  cases hmatches with
  | @same result cursor other' hsame =>
    cases result with
    | error e =>
      dsimp only
      rw [hsame.instruction_eq]
      exact ⟨rfl, hsame.store⟩
    | ok _ =>
      dsimp only
      rw [hsame.instruction_eq, hsame.next_eq]
      exact ⟨rfl, hsame.store⟩
  | left he => exact he.elim
  | right he => exact he.elim

end Instruction

end StoryMachine
