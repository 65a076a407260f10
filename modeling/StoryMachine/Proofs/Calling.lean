import StoryMachine.Proofs.Variables

/-!
# Calls of routines

* `RoutineAt image place defaults` : how a routine begins, with the number of its locals and their default values, and
  at least one byte behind them;
* `holds_of_readWords`, `readWords_of_holds` : the defaults are read as they stand; `getElem?_overlay` : the arguments
  are bound over them one by one;
* `Machine.Binds` : the frame that a call makes;
* `callRoutine_atomic` : **a call binds its arguments and enters the routine, or changes nothing at all**, and a return
  with a value does what storing the value would have done in place of the call.
-/

namespace StoryMachine.Machine

variable {G S : Type}

/-! ## The start of a routine -/

/-- A routine stands at a place of an image. It begins with the number of its locals and their default values; at least
one byte of its body lies behind them. -/
structure RoutineAt (image : Image) (place : Nat) (defaults : List UInt16) : Prop where
  length_le : defaults.length ≤ maxLocals
  header : image.HoldsAt place (.ofNat defaults.length :: defaults.flatMap wordBytes)
  body_lt : place + 1 + 2 * defaults.length < image.bytes.size

section
variable {image : Image} {address : UInt32}

/-- Words that were read stand one behind the other. -/
theorem holds_of_readWords {count : Nat} {words : List UInt16} (h : readWords image address count = .ok words) :
    image.Holds address (words.flatMap wordBytes) := by
  induction count generalizing address words with
  | zero =>
    cases h
    exact List.nil_prefix
  | succ count ih =>
    obtain ⟨word, hword, h⟩ := exists_of_bind_eq_ok h
    obtain ⟨rest, hrest, h⟩ := exists_of_bind_eq_ok h
    cases h
    obtain ⟨hbehind, -⟩ := Image.behind_readWord hword
    exact (Image.Holds.of_readWord hword).append (ih hrest) hbehind

theorem readWords_of_holds (hsize : image.bytes.size < 0x100000000) {words : List UInt16}
    (h : image.Holds address (words.flatMap wordBytes)) : readWords image address words.length = .ok words := by
  induction words generalizing address with
  | nil => rfl
  | cons word words ih =>
    rw [List.flatMap_cons] at h
    have hrest : image.Holds (address + 2) (words.flatMap wordBytes) := h.right hsize 2 rfl
    rw [List.length_cons, readWords, h.readWord hsize, ok_bind, ih hrest]
    rfl

end

theorem getElem?_overlay (defaults arguments : List UInt16) (i : Nat) :
    (overlay defaults arguments)[i]? = defaults[i]?.map fun default => arguments.getD i default := by
  fun_induction overlay defaults arguments generalizing i with
  | case1 arguments => rfl
  | case2 defaults => simp
  | case3 default defaults argument arguments ih =>
    cases i with
    | zero => rfl
    | succ i => simpa using ih i

theorem toNat_unpackAddress (packed : UInt16) : (unpackAddress packed).toNat = 2 * packed.toNat := by
  have hpacked := packed.toNat_lt
  rw [unpackAddress, UInt32.toNat_mul, UInt16.toNat_toUInt32]
  show packed.toNat * 2 % 0x100000000 = _
  omega

/-- The body of a routine lies behind its defaults; no packed address is so high that it would wrap around. -/
theorem toNat_body {routine : UInt32} (hroutine : routine.toNat < 0x20000) (count : UInt8) :
    (routine + 1 + 2 * count.toUInt32).toNat = routine.toNat + 1 + 2 * count.toNat := by
  have hcount := count.toNat_lt
  have hdouble : (2 * count.toUInt32).toNat = 2 * count.toNat := by
    rw [UInt32.toNat_mul, UInt8.toNat_toUInt32]
    exact Nat.mod_eq_of_lt (by simp; omega)
  have hstart : (routine + 1).toNat = routine.toNat + 1 := toNat_add_of_lt (by simp; omega)
  rw [toNat_add_of_lt (by omega), hstart, hdouble]

section
variable {image : Image} {routine : UInt32}

/-- A routine that can be entered stands there. -/
theorem routineAt_of_enterRoutine {body : UInt32} {arguments values : List UInt16} (hroutine : routine.toNat < 0x20000)
    (h : enterRoutine image routine arguments = .ok (values, body)) :
    ∃ defaults, RoutineAt image routine.toNat defaults ∧ values = overlay defaults arguments ∧
      body.toNat = routine.toNat + 1 + 2 * defaults.length := by
  obtain ⟨count, hcount, h⟩ := exists_of_bind_eq_ok h
  split at h
  · cases h
  · rename_i hfew
    obtain ⟨defaults, hdefaults, h⟩ := exists_of_bind_eq_ok h
    dsimp only at h
    split at h
    · cases h
    · rename_i hinside
      cases h
      have hlength := length_of_readWords hdefaults
      have hbody := toNat_body hroutine count
      have hheader := (Image.Holds.of_readByte hcount).append (holds_of_readWords hdefaults)
        (Image.toNat_behind_readByte hcount)
      rw [← @UInt8.ofNat_toNat count, ← hlength] at hheader
      refine ⟨defaults, ⟨by omega, hheader, ?_⟩, rfl, by omega⟩
      have hlt := UInt32.lt_iff_toNat_lt.mp (UInt32.not_le.mp hinside)
      have hsize : image.length.toNat ≤ image.bytes.size := by
        rw [Image.length, Nat.toUInt32, UInt32.toNat_ofNat']
        exact Nat.mod_le _ _
      omega

/-- A routine that stands there can be entered. -/
theorem exists_enterRoutine (hsize : image.bytes.size < 0x100000000) (hroutine : routine.toNat < 0x20000)
    {defaults : List UInt16} (h : RoutineAt image routine.toNat defaults) (arguments : List UInt16) :
    ∃ body, enterRoutine image routine arguments = .ok (overlay defaults arguments, body) := by
  have hfew : defaults.length ≤ 15 := h.length_le
  have hcount : (UInt8.ofNat defaults.length).toNat = defaults.length := by
    rw [UInt8.toNat_ofNat']
    exact Nat.mod_eq_of_lt (by omega)
  have hholds : image.Holds routine ([.ofNat defaults.length] ++ defaults.flatMap wordBytes) := h.header
  have hdefaults := readWords_of_holds hsize (hholds.right hsize 1 rfl)
  have hbody := toNat_body hroutine (.ofNat defaults.length)
  have hinside : ¬ routine + 1 + 2 * (UInt8.ofNat defaults.length).toUInt32 ≥ image.length := by
    have hlt := h.body_lt
    rw [ge_iff_le, UInt32.not_le, UInt32.lt_iff_toNat_lt, Image.toNat_length hsize]
    omega
  refine ⟨routine + 1 + 2 * (UInt8.ofNat defaults.length).toUInt32, ?_⟩
  rw [enterRoutine, hholds.readByte hsize, ok_bind, hcount, if_neg (by unfold maxLocals; omega), hdefaults]
  show (if _ then _ else _) = _
  rw [if_neg hinside]
  rfl

end

/-! ## The frame of a call -/

/-- The frame that a call makes: the way back, and the locals, each with its argument if there is one and with its
default otherwise. -/
structure Binds (machine : Machine G S) (defaults arguments : List UInt16) (storeVariable : UInt8) (frame : Frame) :
    Prop where
  returnPC_eq : frame.returnPC = machine.pc
  storeVariable_eq : frame.storeVariable = storeVariable
  keeps : frame.discardResult = false
  savedFloor_eq : frame.savedFloor = machine.stack.floor
  numLocals_eq : frame.numLocals = defaults.length
  readLocal_eq : ∀ i (h : i < defaults.length),
    frame.readLocal ((i + 1 : Nat) : Int) = .ok (arguments.getD i defaults[i])

theorem binds_of_bind {machine : Machine G S} {defaults arguments : List UInt16} {storeVariable : UInt8} {frame : Frame}
    (h : Frame.bind { returnPC := machine.pc, storeVariable, numLocals := 0, savedFloor := machine.stack.floor }
      (overlay defaults arguments) = .ok frame) : Binds machine defaults arguments storeVariable frame := by
  unfold Frame.bind at h
  split at h
  · rename_i hlength
    cases h
    refine ⟨rfl, rfl, rfl, rfl, length_overlay _ _, fun i hi => ?_⟩
    rw [length_overlay] at hlength
    have hvalue : (overlay defaults arguments).getD i 0 = arguments.getD i defaults[i] := by
      rw [List.getD_eq_getElem?_getD, getElem?_overlay, List.getElem?_eq_getElem hi]
      rfl
    have hused : ((i + 1 : Nat) : Int) ≤ (overlay defaults arguments).length := by
      rw [length_overlay]
      omega
    have hslot : ((i + 1 : Nat) : Int).toNat - 1 < maxLocals := by omega
    rw [Frame.readLocal_of_lt (by omega) hused hslot, Vector.getElem_ofFn, ← hvalue]
    simp
  · cases h

theorem exists_bind (machine : Machine G S) (storeVariable : UInt8) {values : List UInt16}
    (hlength : values.length ≤ maxLocals) :
    ∃ frame, Frame.bind
      { returnPC := machine.pc, storeVariable, numLocals := 0, savedFloor := machine.stack.floor } values =
        .ok frame := by
  unfold Frame.bind
  rw [if_pos hlength]
  exact ⟨_, rfl⟩

/-! ## Entering and leaving -/

/-- The machine in a routine that has just been entered. -/
def inRoutine (machine : Machine G S) (frame : Frame) (body : UInt32) : Machine G S :=
  { machine with
    calls := { machine.calls with frames := machine.calls.frames.push frame }
    stack := { machine.stack with floor := machine.stack.size }
    pc := body }

theorem returnValue_inRoutine {machine : Machine G S} {defaults arguments : List UInt16} {storeVariable : UInt8}
    {frame : Frame} (h : Binds machine defaults arguments storeVariable frame) (body : UInt32) (value : UInt16) :
    (returnValue value).perform (machine.inRoutine frame body) =
      (onStore (Store.write storeVariable value)).perform machine := by
  have htop : (machine.inRoutine frame body).calls.top? = some frame := Array.back?_push
  have hleave : (machine.inRoutine frame body).stack.leave frame.savedFloor = .ok machine.stack := by
    rw [h.savedFloor_eq]
    exact Stack.leave_enter machine.stack
  have hpop : (machine.inRoutine frame body).calls.pop = machine.calls := by
    rw [inRoutine, CallStack.pop, Array.pop_push]
  rw [perform_returnValue, htop]
  dsimp only
  rw [hleave]
  dsimp only
  rw [h.keeps, if_neg (by decide), hpop, h.storeVariable_eq, h.returnPC_eq]
  rfl

section
variable {packed : UInt16} {arguments : List UInt16} {storeVariable : UInt8} {machine : Machine G S}

/-- What a call of an address other than 0 needs, and what it makes. -/
theorem inRoutine_of_callRoutine {after : Machine G S} (hpacked : packed ≠ 0)
    (h : (callRoutine packed arguments storeVariable).perform machine = (.ok (), after)) :
    machine.calls.depth < machine.calls.capacity ∧
      ∃ defaults frame body, RoutineAt machine.image (2 * packed.toNat) defaults ∧
        Binds machine defaults arguments storeVariable frame ∧
        body.toNat = 2 * packed.toNat + 1 + 2 * defaults.length ∧ after = machine.inRoutine frame body := by
  rw [perform_callRoutine, if_neg hpacked] at h
  cases hentered : machine.entered packed arguments storeVariable with
  | error e =>
    rw [hentered] at h
    cases h
  | ok routine =>
    rw [hentered] at h
    cases h
    obtain ⟨⟨values, body⟩, henter, hentered⟩ := exists_of_bind_eq_ok hentered
    obtain ⟨frame, hbind, hentered⟩ := exists_of_bind_eq_ok hentered
    obtain ⟨calls, hpush, hentered⟩ := exists_of_bind_eq_ok hentered
    cases hentered
    have hplace := toNat_unpackAddress packed
    have hlow := packed.toNat_lt
    obtain ⟨defaults, hroutine, rfl, hbody⟩ := routineAt_of_enterRoutine (by omega) henter
    obtain ⟨hdepth, rfl⟩ := CallStack.of_push hpush
    rw [hplace] at hroutine hbody
    exact ⟨hdepth, defaults, frame, body, hroutine, binds_of_bind hbind, hbody, rfl⟩

/-- A routine that stands at the address is entered if there is room for its frame. -/
theorem exists_callRoutine (hpacked : packed ≠ 0) (hsize : machine.image.bytes.size < 0x100000000)
    {defaults : List UInt16} (hroutine : RoutineAt machine.image (2 * packed.toNat) defaults)
    (hdepth : machine.calls.depth < machine.calls.capacity) (arguments : List UInt16) (storeVariable : UInt8) :
    ∃ after, (callRoutine packed arguments storeVariable).perform machine = (.ok (), after) := by
  have hplace := toNat_unpackAddress packed
  have hlow := packed.toNat_lt
  rw [← hplace] at hroutine
  obtain ⟨body, henter⟩ := exists_enterRoutine hsize (by omega) hroutine arguments
  obtain ⟨frame, hbind⟩ := exists_bind machine storeVariable
    (Nat.le_trans (Nat.le_of_eq (length_overlay defaults arguments)) hroutine.length_le)
  have hpush : machine.calls.push frame = .ok { machine.calls with frames := machine.calls.frames.push frame } :=
    if_neg (by omega)
  rw [perform_callRoutine, if_neg hpacked, entered, henter, ok_bind]
  dsimp only
  rw [hbind, ok_bind, hpush]
  exact ⟨_, rfl⟩

theorem atomic_callRoutine (packed : UInt16) (arguments : List UInt16) (storeVariable : UInt8) :
    (callRoutine packed arguments storeVariable : Exec (Machine G S) Unit).Atomic := by
  intro machine error h
  rw [perform_callRoutine] at h ⊢
  split at h
  · rename_i hpacked
    rw [if_pos hpacked]
    exact (Store.atomic_write storeVariable 0).within (fun _ => rfl) machine error h
  · rename_i hpacked
    rw [if_neg hpacked]
    cases hentered : machine.entered packed arguments storeVariable with
    | error e => rfl
    | ok routine =>
      rw [hentered] at h
      cases h

end

/-- **A call binds its arguments and enters the routine, or changes nothing at all.** A call that fails leaves the
machine as it was, wherever it fails. A call that enters a routine adds one frame, in which every local has its argument
or else the default in the routine's header, raises the floor to the top of the stack, and goes to the routine's body,
inside the image; nothing else changes. It enters one just if a routine stands at the address and one more frame is
allowed. A return right behind it does what storing the value in place of the call would have done; a call of address 0
stores 0. -/
theorem callRoutine_atomic (machine : Machine G S) (packed : UInt16) (arguments : List UInt16) (storeVariable : UInt8) :
    (∀ error, ((callRoutine packed arguments storeVariable).perform machine).1 = .error error →
      ((callRoutine packed arguments storeVariable).perform machine).2 = machine) ∧
    (∀ after, packed ≠ 0 → (callRoutine packed arguments storeVariable).perform machine = (.ok (), after) →
      (∃ defaults frame body, RoutineAt machine.image (2 * packed.toNat) defaults ∧
        Binds machine defaults arguments storeVariable frame ∧
        body.toNat = 2 * packed.toNat + 1 + 2 * defaults.length ∧
        after = { machine with
          calls := { machine.calls with frames := machine.calls.frames.push frame }
          stack := { machine.stack with floor := machine.stack.size }
          pc := body }) ∧
      ∀ value, (returnValue value).perform after = (onStore (Store.write storeVariable value)).perform machine) ∧
    (packed ≠ 0 → machine.image.bytes.size < 0x100000000 →
      ((∃ after, (callRoutine packed arguments storeVariable).perform machine = (.ok (), after)) ↔
        (∃ defaults, RoutineAt machine.image (2 * packed.toNat) defaults) ∧
          machine.calls.depth < machine.calls.capacity)) ∧
    (packed = 0 → (callRoutine packed arguments storeVariable).perform machine =
      (onStore (Store.write storeVariable 0)).perform machine) := by
  refine ⟨fun error h => atomic_callRoutine packed arguments storeVariable machine error h, ?_, ?_, ?_⟩
  · intro after hpacked h
    obtain ⟨-, defaults, frame, body, hroutine, hbinds, hbody, rfl⟩ := inRoutine_of_callRoutine hpacked h
    exact ⟨⟨defaults, frame, body, hroutine, hbinds, hbody, rfl⟩, returnValue_inRoutine hbinds body⟩
  · intro hpacked hsize
    constructor
    · rintro ⟨after, h⟩
      obtain ⟨hdepth, defaults, frame, body, hroutine, -⟩ := inRoutine_of_callRoutine hpacked h
      exact ⟨⟨defaults, hroutine⟩, hdepth⟩
    · rintro ⟨⟨defaults, hroutine⟩, hdepth⟩
      exact exists_callRoutine hpacked hsize hroutine hdepth arguments storeVariable
  · rintro rfl
    rw [perform_callRoutine, if_pos rfl]

/-- In the sample story, the bytes from 0x4C on are those of a routine with four locals, which is entered unless no
frame is allowed. At 0x42 there would be one with fourteen, but their defaults reach beyond the image. -/
theorem callRoutine_atomic_sample :
    (∃ after, (callRoutine 0x26 [7, 8] 0).perform sampleMachine = (.ok (), after) ∧ after.pc = 0x55 ∧
      after.calls.top?.map Frame.values = some [7, 8, 0, 0] ∧
      ∀ value, (returnValue value).perform after = (onStore (Store.write 0 value)).perform sampleMachine) ∧
    (callRoutine 0x26 [7, 8] 0).perform { sampleMachine with calls := ⟨#[], 0⟩ } =
      (.error (.callsFull 0), { sampleMachine with calls := ⟨#[], 0⟩ }) ∧
    (callRoutine 0x21 [] 0).perform sampleMachine = (.error (.readWord 0x59), sampleMachine) := by
  obtain ⟨-, henters, -⟩ := callRoutine_atomic sampleMachine 0x26 [7, 8] 0
  obtain ⟨hrefused, -⟩ := callRoutine_atomic { sampleMachine with calls := ⟨#[], 0⟩ } 0x26 [7, 8] 0
  obtain ⟨hfails, -⟩ := callRoutine_atomic sampleMachine 0x21 [] 0
  have hfull : ((callRoutine 0x26 [7, 8] 0).perform { sampleMachine with calls := ⟨#[], 0⟩ }).1 =
      .error (.callsFull 0) := rfl
  have herror : ((callRoutine 0x21 [] 0).perform sampleMachine).1 = .error (.readWord 0x59) := rfl
  exact ⟨⟨_, rfl, rfl, rfl, (henters _ (by decide) rfl).2⟩, Prod.ext hfull (hrefused _ hfull),
    Prod.ext herror (hfails _ herror)⟩

end StoryMachine.Machine
