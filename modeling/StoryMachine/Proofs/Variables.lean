import StoryMachine.Proofs.Cells
import StoryMachine.Proofs.Reachable

/-!
# Variables

* `Store.SameElsewhere number before after` : nothing outside one variable differs between two stores; every other
  variable then has the value it had (`SameElsewhere.peek_eq`);
* `atomic_read`, `atomic_write`, `atomic_peek`, `atomic_replace` : a step on a variable that fails changes nothing;
* `read_of_write`, `peek_of_replace`, `replace_of_peek`, `add_add` : the laws of variables, from those of cells;
* `variables_lawful` : **every variable is a cell of its own**, whether it is set in place or pushed, and adding to it
  twice is adding once.
-/

namespace StoryMachine

namespace Store

/-! ## What a variable leaves alone -/

/-- The stores are the same outside one variable: the words of the stack, but for the top one if it is the variable; the
frames, but for the variable's slot in the running one; and the bytes, but for the variable's own two. -/
structure SameElsewhere (number : UInt8) (before after : Store) : Prop where
  words : ∀ i, (number = 0 → i + 1 ≠ after.stack.size) → after.stack.values[i]? = before.stack.values[i]?
  floor_eq : after.stack.floor = before.stack.floor
  capacity_eq : after.stack.capacity = before.stack.capacity
  callers_eq : after.calls.frames.pop = before.calls.frames.pop
  depth_eq : after.calls.depth = before.calls.depth
  depthLimit_eq : after.calls.capacity = before.calls.capacity
  running : ∀ frame, before.calls.top? = some frame →
    ∃ locals, after.calls.top? = some { frame with locals } ∧
      ∀ slot, slot + 1 ≠ number.toNat → locals[slot]? = frame.locals[slot]?
  sameStory : before.image.SameStory after.image
  bytes : ∀ i,
    (firstGlobal ≤ number →
      i < globalPlace before.image number ∨ globalPlace before.image number + 2 ≤ i) →
    after.image.bytes[i]? = before.image.bytes[i]?

namespace SameElsewhere

variable {number : UInt8} {before after : Store}

theorem refl (number : UInt8) (store : Store) : SameElsewhere number store store where
  words _ _ := rfl
  floor_eq := rfl
  capacity_eq := rfl
  callers_eq := rfl
  depth_eq := rfl
  depthLimit_eq := rfl
  running frame h := ⟨frame.locals, h, fun _ _ => rfl⟩
  sameStory := .refl store.image
  bytes _ _ := rfl

theorem of_stack {stack : Stack}
    (hwords : ∀ i, i + 1 ≠ stack.size → stack.values[i]? = before.stack.values[i]?)
    (hfloor : stack.floor = before.stack.floor) (hcapacity : stack.capacity = before.stack.capacity) :
    SameElsewhere 0 before { before with stack } :=
  { SameElsewhere.refl 0 before with
    words := fun i hi => hwords i (hi rfl)
    floor_eq := hfloor
    capacity_eq := hcapacity }

theorem of_push {value : UInt16} {stack : Stack} (h : before.stack.push value = .ok stack) :
    SameElsewhere 0 before { before with stack } := by
  obtain ⟨-, hvalues, hcapacity, hfloor⟩ := Stack.of_push h
  refine of_stack (fun i hi => ?_) hfloor hcapacity
  rw [Stack.size, hvalues, Array.size_push] at hi
  rw [hvalues, Array.getElem?_push, if_neg (by omega)]

theorem of_replaceTop {value : UInt16} {stack : Stack} (h : before.stack.replaceTop value = .ok stack) :
    SameElsewhere 0 before { before with stack } ∧ stack.size = before.stack.size := by
  obtain ⟨rest, top, hvalues, -, -, rfl⟩ := Stack.exists_push_of_replaceTop h
  refine ⟨of_stack (fun i hi => ?_) rfl rfl, ?_⟩
  · rw [Stack.size, Array.size_push] at hi
    rw [hvalues, Array.getElem?_push, Array.getElem?_push, if_neg (by omega), if_neg (by omega)]
  · rw [Stack.size, Stack.size, hvalues, Array.size_push, Array.size_push]

theorem of_writeLocal {frame changed : Frame} {value : UInt16} (htop : before.calls.top? = some frame)
    (h : frame.writeLocal number.toNat value = .ok changed) :
    SameElsewhere number before { before with calls := before.calls.replaceTop changed } := by
  obtain ⟨hone, -, hslot, rfl⟩ := Frame.of_writeLocal h
  obtain ⟨callers, hframes⟩ := exists_push_of_top? htop
  refine { SameElsewhere.refl number before with callers_eq := ?_, depth_eq := ?_, running := ?_ }
  · simp [CallStack.replaceTop]
  · simp [CallStack.depth, CallStack.replaceTop, hframes]
  · intro running hrunning
    rw [htop] at hrunning
    cases hrunning
    refine ⟨frame.locals.set (number.toNat - 1) value, CallStack.top?_replaceTop _ _, fun slot hother => ?_⟩
    exact Vector.getElem?_set_ne hslot (by omega)

theorem of_writeWord {value : UInt16} {image : Image} (hgood : before.image.WellFormed)
    (hglobals : before.image.header.globals.toNat < 0x10000) (hnumber : firstGlobal ≤ number)
    (h : before.image.writeWord (globalAddress before.image number) value = .ok image) :
    SameElsewhere number before { before with image } := by
  have hputs := Image.puts_of_writeWord hgood h
  rw [toNat_globalAddress hglobals hnumber] at hputs
  exact { SameElsewhere.refl number before with
    sameStory := hputs.sameStory
    bytes := fun i hi => hputs.unchanged (hi hnumber) }

theorem values_eq (h : SameElsewhere number before after) (hzero : number ≠ 0) :
    after.stack.values = before.stack.values :=
  Array.ext_getElem? fun i => h.words i fun hnumber => absurd hnumber hzero

theorem top?_eq_none (h : SameElsewhere number before after) (htop : before.calls.top? = none) :
    after.calls.top? = none := by
  have hdepth := h.depth_eq
  unfold CallStack.depth at hdepth
  unfold CallStack.top? at htop ⊢
  rw [Array.back?_eq_none_iff] at htop ⊢
  rw [htop, Array.size_empty] at hdepth
  exact Array.eq_empty_of_size_eq_zero hdepth

theorem peek_stack (h : SameElsewhere number before after) (hzero : number ≠ 0) :
    after.stack.peek = before.stack.peek := by
  have hvalues := h.values_eq hzero
  rw [Stack.peek, Stack.peek, Stack.top, Stack.top, Stack.size, Stack.size, hvalues, h.floor_eq]

theorem readLocal_eq (h : SameElsewhere number before after) {other : UInt8} (hzero : other ≠ 0)
    (hother : other.toNat ≠ number.toNat) :
    ((readLocal other).perform after).1 = ((readLocal other).perform before).1 := by
  rw [readLocal, Exec.perform_query, Exec.perform_query]
  dsimp only
  cases htop : before.calls.top? with
  | none => rw [h.top?_eq_none htop]
  | some frame =>
    obtain ⟨locals, htop', hlocals⟩ := h.running frame htop
    have hpos : 0 < other.toNat := UInt8.lt_iff_toNat_lt.mp (UInt8.pos_iff_ne_zero.mpr hzero)
    rw [htop']
    exact Frame.readLocal_congr (hlocals _ (by omega))

/-- The words of two globals have no byte in common. -/
theorem bytes_of_global (h : SameElsewhere number before after) {other : UInt8} (hglobal : firstGlobal ≤ other)
    (hother : other.toNat ≠ number.toNat) {i : Nat} (hlow : globalPlace before.image other ≤ i)
    (hhigh : i < globalPlace before.image other + 2) : after.image.bytes[i]? = before.image.bytes[i]? := by
  refine h.bytes i fun hnumber => ?_
  have hle := UInt8.le_iff_toNat_le.mp hglobal
  have hle' := UInt8.le_iff_toNat_le.mp hnumber
  unfold globalPlace at *
  omega

theorem readWord_eq (h : SameElsewhere number before after)
    (hglobals : before.image.header.globals.toNat < 0x10000) {other : UInt8} (hglobal : firstGlobal ≤ other)
    (hother : other.toNat ≠ number.toNat) :
    after.image.readWord (globalAddress after.image other) =
      before.image.readWord (globalAddress before.image other) := by
  have hplace := toNat_globalAddress hglobals hglobal
  have hbehind : (globalAddress before.image other + 1).toNat = globalPlace before.image other + 1 := by
    have hbound := other.toNat_lt
    rw [toNat_add_of_lt (by rw [hplace, globalPlace]; simp; omega), hplace]
    rfl
  rw [globalAddress_congr h.sameStory]
  refine Image.readWord_congr h.sameStory.size_eq ?_ ?_
  · rw [hplace]
    exact h.bytes_of_global hglobal hother (by omega) (by omega)
  · rw [hbehind]
    exact h.bytes_of_global hglobal hother (by omega) (by omega)

/-- Every other variable has the value it had, or is missing for the same reason. -/
theorem peek_eq (h : SameElsewhere number before after) (hglobals : before.image.header.globals.toNat < 0x10000)
    {other : UInt8} (hother : other ≠ number) :
    ((peek other).perform after).1 = ((peek other).perform before).1 := by
  have hne : other.toNat ≠ number.toNat := fun heq => hother (UInt8.toNat_inj.mp heq)
  rcases number_cases other with rfl | ⟨hzero, hlocal⟩ | ⟨hzero, hglobal⟩
  · rw [peek, if_pos rfl, Exec.perform_query, Exec.perform_query]
    exact h.peek_stack hother.symm
  · rw [peek_local hzero hlocal]
    exact h.readLocal_eq hzero hne
  · rw [peek_global hzero hglobal, Exec.perform_query, Exec.perform_query]
    exact h.readWord_eq hglobals (UInt8.not_lt.mp hglobal) hne

end SameElsewhere

section
variable {number : UInt8} {value : UInt16} {before after : Store}

theorem sameElsewhere_write (hgood : before.image.WellFormed)
    (hglobals : before.image.header.globals.toNat < 0x10000)
    (h : (write number value).perform before = (.ok (), after)) : SameElsewhere number before after := by
  rcases number_cases number with rfl | ⟨hzero, hlocal⟩ | ⟨hzero, hglobal⟩
  · obtain ⟨stack, hpush, h⟩ := exists_of_bind_eq_ok (Exec.eq_ok_of_perform_change h)
    cases h
    exact .of_push hpush
  · rw [write_local hzero hlocal] at h
    obtain ⟨frame, changed, htop, hchanged, rfl⟩ := exists_of_updateFrame (Exec.eq_ok_of_perform_change h)
    exact .of_writeLocal htop hchanged
  · rw [write_global hzero hglobal] at h
    obtain ⟨image, hwrite, h⟩ := exists_of_bind_eq_ok (Exec.eq_ok_of_perform_change h)
    cases h
    exact .of_writeWord hgood hglobals (UInt8.not_lt.mp hglobal) hwrite

/-- A value that is set in place leaves as many words on the stack as there were. -/
theorem sameElsewhere_replace (hgood : before.image.WellFormed)
    (hglobals : before.image.header.globals.toNat < 0x10000)
    (h : (replace number value).perform before = (.ok (), after)) :
    SameElsewhere number before after ∧ after.stack.size = before.stack.size := by
  by_cases hzero : number = 0
  · subst hzero
    obtain ⟨stack, hreplace, h⟩ := exists_of_bind_eq_ok (Exec.eq_ok_of_perform_change h)
    cases h
    exact SameElsewhere.of_replaceTop hreplace
  · rw [replace_of_ne_zero hzero] at h
    have hsame := sameElsewhere_write hgood hglobals h
    exact ⟨hsame, congrArg Array.size (hsame.values_eq hzero)⟩

/-! ## The laws -/

theorem atomic_peek (number : UInt8) : (peek number).Atomic := by
  obtain ⟨get, set, hpeek, -⟩ := exists_variable number
  rw [hpeek]
  exact .query get

theorem atomic_replace (number : UInt8) (value : UInt16) : (replace number value).Atomic := by
  obtain ⟨get, set, -, hreplace, -⟩ := exists_variable number
  rw [hreplace]
  exact .change _

theorem atomic_pop : pop.Atomic := by
  intro store error h
  rw [perform_pop] at h ⊢
  cases hpop : store.stack.pop with
  | error e => rfl
  | ok popped =>
    rw [hpop] at h
    cases h

theorem atomic_read (number : UInt8) : (read number).Atomic := by
  by_cases hzero : number = 0
  · subst hzero
    exact atomic_pop
  · rw [← peek_of_ne_zero hzero]
    exact atomic_peek number

theorem atomic_write (number : UInt8) (value : UInt16) : (write number value).Atomic := by
  by_cases hzero : number = 0
  · subst hzero
    exact .change _
  · rw [← replace_of_ne_zero hzero]
    exact atomic_replace number value

theorem read_of_write (hgood : before.image.WellFormed) (hfloor : before.stack.floor ≤ before.stack.size)
    (h : (write number value).perform before = (.ok (), after)) :
    ((read number).perform after).1 = .ok value ∧
      (number = 0 → SameWords ((read number).perform after).2 before) := by
  by_cases hzero : number = 0
  · subst hzero
    obtain ⟨stack, hpush, h⟩ := exists_of_bind_eq_ok (Exec.eq_ok_of_perform_change h)
    cases h
    obtain ⟨popped, hpop, hwords⟩ := Stack.pop_of_push hpush hfloor
    have hread : (read 0).perform { before with stack } = (.ok value, { before with stack := popped }) := by
      rw [show read 0 = pop from rfl, perform_pop, hpop]
    rw [hread]
    exact ⟨rfl, fun _ => ⟨rfl, hwords, rfl⟩⟩
  · obtain ⟨get, set, hpeek, hreplace, hcell⟩ := exists_variable number
    rw [← replace_of_ne_zero hzero, hreplace] at h
    rw [← peek_of_ne_zero hzero, hpeek, Exec.perform_query]
    exact ⟨hcell.get_set hgood (Exec.eq_ok_of_perform_change h), fun hnumber => absurd hnumber hzero⟩

theorem perform_add {get : Store → Except Error UInt16} {set : UInt16 → Store → Except Error Store}
    (hpeek : peek number = .query get) (hreplace : ∀ value, replace number value = .change (set value))
    (delta : UInt16) (store : Store) :
    (add number delta).perform store =
      match get store with
      | .error error => (.error error, store)
      | .ok value =>
        match set (value + delta) store with
        | .error error => (.error error, store)
        | .ok after => (.ok (value + delta), after) := by
  rw [add, hpeek]
  cases hget : get store with
  | error e => rw [Exec.perform_bind_error (by rw [Exec.perform_query, hget])]
  | ok value =>
    rw [Exec.perform_bind_ok (by rw [Exec.perform_query, hget])]
    dsimp only
    rw [hreplace]
    cases hset : set (value + delta) store with
    | error e => rw [Exec.perform_bind_error (by rw [Exec.perform_change, hset])]
    | ok after => rw [Exec.perform_bind_ok (by rw [Exec.perform_change, hset])]; rfl

/-- The value that was there before something was added to it. -/
theorem exists_of_add {get : Store → Except Error UInt16} {set : UInt16 → Store → Except Error Store}
    (hpeek : peek number = .query get) (hreplace : ∀ value, replace number value = .change (set value))
    {delta result : UInt16} (h : (add number delta).perform before = (.ok result, after)) :
    ∃ value, get before = .ok value ∧ set (value + delta) before = .ok after ∧ result = value + delta := by
  rw [perform_add hpeek hreplace] at h
  cases hget : get before with
  | error e =>
    rw [hget] at h
    cases h
  | ok value =>
    rw [hget] at h
    dsimp only at h
    cases hset : set (value + delta) before with
    | error e =>
      rw [hset] at h
      cases h
    | ok middle =>
      rw [hset] at h
      cases h
      exact ⟨value, rfl, hset, rfl⟩

/-- Adding twice is adding once; and taking away what was added brings the store back. -/
theorem add_add {a result : UInt16} (hgood : before.image.WellFormed)
    (h : (add number a).perform before = (.ok result, after)) :
    (∀ b, (add number b).perform after = (add number (a + b)).perform before) ∧
      (add number (-a)).perform after = (.ok (result - a), before) := by
  obtain ⟨get, set, hpeek, hreplace, hcell⟩ := exists_variable number
  obtain ⟨value, hget, hset, rfl⟩ := exists_of_add hpeek hreplace h
  have hfound := hcell.get_set hgood hset
  refine ⟨fun b => ?_, ?_⟩
  · obtain ⟨last, hlast⟩ := hcell.exists_set (value + (a + b)) hgood hset
    rw [perform_add hpeek hreplace, perform_add hpeek hreplace, hfound, hget]
    dsimp only
    rw [hcell.set_set _ hgood hset, UInt16.add_assoc, hlast]
  · have hvalue : value + a + -a = value := by
      rw [UInt16.add_assoc, UInt16.add_right_neg, UInt16.add_zero]
    rw [perform_add hpeek hreplace, hfound]
    dsimp only
    rw [hvalue, hcell.set_back hgood hget hset, UInt16.sub_eq_add_neg, hvalue]

/-- Looking at a variable that was set in place gives the value, and setting it once more hides the first time. -/
theorem peek_of_replace (hgood : before.image.WellFormed)
    (h : (replace number value).perform before = (.ok (), after)) :
    ((peek number).perform after).1 = .ok value ∧
      ∀ other, (replace number other).perform after = (replace number other).perform before := by
  obtain ⟨get, set, hpeek, hreplace, hcell⟩ := exists_variable number
  rw [hreplace] at h
  have hset := Exec.eq_ok_of_perform_change h
  refine ⟨?_, fun other => ?_⟩
  · rw [hpeek, Exec.perform_query]
    exact hcell.get_set hgood hset
  · obtain ⟨last, hlast⟩ := hcell.exists_set other hgood hset
    rw [hreplace, Exec.perform_change, Exec.perform_change, hcell.set_set other hgood hset, hlast]

/-- Setting a variable to the value that it has changes nothing, whether the variable can be set or not. -/
theorem replace_of_peek (hgood : before.image.WellFormed) (h : ((peek number).perform before).1 = .ok value) :
    ((replace number value).perform before).2 = before := by
  obtain ⟨get, set, hpeek, hreplace, hcell⟩ := exists_variable number
  rw [hpeek, Exec.perform_query] at h
  rw [hreplace, Exec.perform_change]
  cases hset : set value before with
  | error e => rfl
  | ok after => exact hcell.set_get hgood h hset

end

end Store

/-! ## Adding to variables -/

namespace Machine

variable {G S : Type} {machine after : Machine G S}

theorem of_perform_onStore {α : Type} {step : Exec Store α} {result : Except Error α}
    (h : (onStore step).perform machine = (result, after)) :
    step.perform machine.toStore = (result, after.toStore) ∧ after = { machine with toStore := after.toStore } := by
  rw [onStore, Exec.perform_within] at h
  cases h
  exact ⟨rfl, rfl⟩

theorem perform_discard {α : Type} (step : Exec (Machine G S) α) (machine : Machine G S) :
    (Functor.discard step).perform machine =
      match step.perform machine with
      | (.ok _, after) => (.ok (), after)
      | (.error error, after) => (.error error, after) := by
  have hbind : Functor.discard step = step >>= fun _ => pure () := by
    rw [Functor.discard, map_const]
    exact (bind_pure_comp _ _).symm
  rw [hbind, Exec.perform_bind]
  rcases step.perform machine with ⟨error | value, after⟩
  · rfl
  · rfl

theorem addTo_addTo {operand a result : UInt16} (hgood : machine.image.WellFormed)
    (h : (addTo operand a).perform machine = (.ok result, after)) :
    (∀ b, (addTo operand b).perform after = (addTo operand (a + b)).perform machine) ∧
      (addTo operand (-a)).perform after = (.ok (result - a), machine) := by
  obtain ⟨hadd, hafter⟩ := of_perform_onStore h
  obtain ⟨hagain, hback⟩ := Store.add_add hgood hadd
  refine ⟨fun b => ?_, ?_⟩
  · rw [addTo, addTo, onStore, onStore, Exec.perform_within, Exec.perform_within, hagain b]
    rw [hafter]
  · rw [addTo, onStore, Exec.perform_within, hback]
    rw [hafter]

theorem decrement_increment [Generator G] [Sink S] {instruction : Instruction}
    (hgood : machine.image.WellFormed) (h : (operate .increment instruction).perform machine = (.ok (), after)) :
    (operate .decrement instruction).perform after = (.ok (), machine) := by
  change (Functor.discard (addTo instruction.operands[0] 1)).perform machine = _ at h
  change (Functor.discard (addTo instruction.operands[0] (-1))).perform after = _
  rw [perform_discard] at h ⊢
  rcases hadd : (addTo instruction.operands[0] 1).perform machine with ⟨error | result, middle⟩
  · rw [hadd] at h
    cases h
  · rw [hadd] at h
    cases h
    rw [(addTo_addTo hgood hadd).2]

/-- **Every variable is a cell of its own.** In a session of any story, whatever its memory holds by now, let the floor
of the stack be no higher than its top. A step on a variable that fails changes nothing, and looking at a variable never
does. A value that is written is read, and variable 0 is then gone from the stack again. A value that is set in place is
seen, hides the ones set before it, and changes nothing if it was there already. Neither touches anything else: not the
other variables, nor other words of the stack, other frames or other bytes. So adding twice to a variable is adding
once, modulo 2^16, and a decrement undoes an increment. -/
theorem variables_lawful [Generator G] [Sink S] {file : Array UInt8} {loaded : Image}
    (hload : Image.load file = .ok loaded) {store : Store} (hsame : loaded.SameStory store.image)
    (hfloor : store.stack.floor ≤ store.stack.size) (number : UInt8) :
    ((Store.read number).Atomic ∧ (Store.peek number).Atomic ∧
      ∀ value, (Store.write number value).Atomic ∧ (Store.replace number value).Atomic) ∧
    ((Store.peek number).perform store).2 = store ∧
    (∀ value after, (Store.write number value).perform store = (.ok (), after) →
      ((Store.read number).perform after).1 = .ok value ∧
      (number = 0 → Store.SameWords ((Store.read number).perform after).2 store) ∧
      Store.SameElsewhere number store after ∧
      ∀ other, other ≠ number → ((Store.peek other).perform after).1 = ((Store.peek other).perform store).1) ∧
    (∀ value after, (Store.replace number value).perform store = (.ok (), after) →
      ((Store.peek number).perform after).1 = .ok value ∧
      (∀ value', (Store.replace number value').perform after = (Store.replace number value').perform store) ∧
      Store.SameElsewhere number store after ∧ after.stack.size = store.stack.size ∧
      ∀ other, other ≠ number → ((Store.peek other).perform after).1 = ((Store.peek other).perform store).1) ∧
    (∀ value, ((Store.peek number).perform store).1 = .ok value →
      ((Store.replace number value).perform store).2 = store) ∧
    (∀ (machine after : Machine G S) (operand a b result : UInt16), machine.toStore = store →
      operand.toUInt8 = number → (addTo operand a).perform machine = (.ok result, after) →
      (addTo operand b).perform after = (addTo operand (a + b)).perform machine) ∧
    (∀ (machine after : Machine G S) (instruction : Instruction), machine.toStore = store →
      instruction.operands[0].toUInt8 = number →
      (operate .increment instruction).perform machine = (.ok (), after) →
      (operate .decrement instruction).perform after = (.ok (), machine)) := by
  have hgood := hsame.wellFormed (Image.load_wellFormed hload)
  have hglobals : store.image.header.globals.toNat < 0x10000 := by
    rw [hsame.header_eq]
    exact Image.globals_lt_of_load hload
  refine ⟨⟨Store.atomic_read number, Store.atomic_peek number, fun value => ?_⟩, ?_, ?_, ?_, ?_, ?_, ?_⟩
  · exact ⟨Store.atomic_write number value, Store.atomic_replace number value⟩
  · obtain ⟨get, set, hpeek, -⟩ := Store.exists_variable number
    rw [hpeek, Exec.perform_query]
  · intro value after hwrite
    obtain ⟨hread, hrestored⟩ := Store.read_of_write hgood hfloor hwrite
    have helsewhere := Store.sameElsewhere_write hgood hglobals hwrite
    exact ⟨hread, hrestored, helsewhere, fun other hother => helsewhere.peek_eq hglobals hother⟩
  · intro value after hreplace
    obtain ⟨hpeek, hagain⟩ := Store.peek_of_replace hgood hreplace
    obtain ⟨helsewhere, hsize⟩ := Store.sameElsewhere_replace hgood hglobals hreplace
    exact ⟨hpeek, hagain, helsewhere, hsize, fun other hother => helsewhere.peek_eq hglobals hother⟩
  · intro value hpeek
    exact Store.replace_of_peek hgood hpeek
  · rintro machine after operand a b result rfl - hadd
    exact (addTo_addTo hgood hadd).1 b
  · rintro machine after instruction rfl - hincrement
    exact decrement_increment hgood hincrement

/-- The store of a session inside a routine with two locals, and with one word of its own on the stack. -/
def sampleStore : Store where
  image := sampleImage
  stack := { values := #[7, 8], spare := [], capacity := 4, floor := 1 }
  calls := { frames := #[{ returnPC := 0x4A, storeVariable := 0, numLocals := 2 }], capacity := 64 }

/-- The top of the stack, a local and the last global in dynamic memory can be written and read; the global behind it
cannot be written. -/
theorem variables_lawful_sample :
    (∀ number ∈ ([0, 2, 0x2F] : List UInt8), ∃ after,
      (Store.write number 42).perform sampleStore = (.ok (), after) ∧ ((Store.read number).perform after).1 = .ok 42 ∧
        ((Store.peek 1).perform after).1 = .ok 0) ∧
    (∃ after, (Store.replace 0 42).perform sampleStore = (.ok (), after) ∧
      ((Store.peek 0).perform after).1 = .ok 42 ∧ after.stack.size = 2) ∧
    (Store.write 0x30 42).perform sampleStore = (.error (.writeWord 0x50), sampleStore) ∧
    ∃ after,
      (operate .increment { address := 0 }).perform { sampleMachine with toStore := sampleStore } = (.ok (), after) ∧
      (operate .decrement { address := 0 }).perform after =
        (.ok (), { sampleMachine with toStore := sampleStore }) := by
  have h := @variables_lawful Dice Transcript _ _ _ _ load_sampleStory sampleStore (.refl _) (by decide)
  refine ⟨fun number hnumber => ?_, ?_, ?_, ?_⟩
  · obtain ⟨after, hwrite, hother⟩ : ∃ after, (Store.write number 42).perform sampleStore = (.ok (), after) ∧
        1 ≠ number := by
      simp only [List.mem_cons, List.not_mem_nil, or_false] at hnumber
      rcases hnumber with rfl | rfl | rfl
      · exact ⟨_, rfl, by decide⟩
      · exact ⟨_, rfl, by decide⟩
      · exact ⟨_, rfl, by decide⟩
    obtain ⟨hread, -, -, hothers⟩ := (h number).2.2.1 42 after hwrite
    exact ⟨after, hwrite, hread, hothers 1 hother⟩
  · obtain ⟨hpeek, -, -, hsize, -⟩ := (h 0).2.2.2.1 42 _ rfl
    exact ⟨_, rfl, hpeek, hsize⟩
  · obtain ⟨⟨-, -, hatomic⟩, -⟩ := h 0x30
    have herror : ((Store.write 0x30 42).perform sampleStore).1 = .error (.writeWord 0x50) := rfl
    exact Prod.ext herror ((hatomic 42).1 sampleStore _ herror)
  · obtain ⟨-, -, -, -, -, -, hinverse⟩ := h 0
    exact ⟨_, rfl, hinverse _ _ _ rfl rfl rfl⟩

end Machine

end StoryMachine
