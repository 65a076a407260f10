import StoryMachine.Proofs.Operation

/-!
# What an operation does to a machine

* `Machine.Change` : what can happen short of entering or leaving a routine: the store changes, the
  program counter moves inside the image, text is printed, a line or a random number is taken, the
  story quits;
* `Sink.Unfailing` : a sink that never refuses a text; `Machine.TakesAll` : the sink, if there is one, is such;
* `Machine.Throws` : the errors of operations, which halt the machine, or say that the sink has refused a text;
  `Machine.law` : steps made of such changes, which fail with such errors; the pieces of operations obey it
  (`obeys_print`, `obeys_nextByte`, ...);
* `Machine.PrintsOnly` : steps that touch nothing but the sink;
* `Machine.Finishes` : changes, and then perhaps a return;
* `Machine.Enters` : a routine is entered, with the address to go back to and the caller's floor in its
  frame;
* `Machine.Effect`, `Machine.operate_effect` : **all that an operation can do.** Invariants of runs are
  proved from this list and never look into an operation again.
-/

namespace StoryMachine

open Relation (ReflTransGen)

/-- An instruction that fails with the error ends in a fault. -/
structure Error.Faults (error : Error) : Prop where
  ne_noLine : ∀ reason, error ≠ .noLine reason
  ne_outsideTable : ∀ table, error ≠ .outsideTable table

/-! ## Sinks -/

namespace Sink

variable {S : Type} [Sink S] {sink : S}

/-- What has become of a sink that was offered a text. -/
def Offered (sink after : S) : Prop :=
  ∃ text, after = (write text sink).2

/-- The sink never refuses a text. -/
def Unfailing (sink : S) : Prop :=
  ∀ after, ReflTransGen Offered sink after → ∀ text, (write text after).1 = none

theorem Unfailing.write (h : Unfailing sink) (text : List UInt8) : Unfailing (write text sink).2 :=
  fun after hafter => h after (.head ⟨text, rfl⟩ hafter)

theorem not_unfailing {text : List UInt8} {reason : String} (h : (Sink.write text sink).1 = some reason) :
    ¬ Unfailing sink := by
  intro hsink
  rw [hsink sink .refl text] at h
  cases h

theorem written_prefix (text : List UInt8) (sink : S) : written sink <+: written (Sink.write text sink).2 := by
  obtain ⟨count, hwritten⟩ := exists_written text sink
  rw [hwritten]
  exact List.prefix_append _ _

end Sink

theorem Transcript.unfailing {transcript : Transcript} (h : transcript.limit = none) :
    Sink.Unfailing transcript := by
  have hlimit : ∀ after, ReflTransGen Sink.Offered transcript after → after.limit = none := by
    intro after hafter
    induction hafter with
    | refl => exact h
    | tail _ hlast ih =>
      obtain ⟨text, rfl⟩ := hlast
      change (Transcript.write text _).2.limit = none
      unfold Transcript.write
      split
      · exact ih
      · exact ih
  intro after hafter text
  change (Transcript.write text after).1 = none
  unfold Transcript.write Transcript.accepts
  rw [hlimit after hafter, if_pos rfl]

namespace Machine

variable {G S : Type}

/-! ## Changes -/

section
variable [Sink S]

/-- What an instruction can do to a machine short of entering or leaving a routine. -/
inductive Change : Machine G S → Machine G S → Prop
  | store {machine : Machine G S} {store : Store} (h : Store.Change machine.toStore store) :
      Change machine { machine with toStore := store }
  | goTo {machine : Machine G S} {address : UInt32}
      (h : address.toNat ≤ machine.image.length.toNat) : Change machine { machine with pc := address }
  | input {machine : Machine G S} {input : Option LineSource} : Change machine { machine with input }
  | output {machine : Machine G S} {sink : S} {text : List UInt8} (hsink : machine.sink = some sink) :
      Change machine { machine with sink := some (Sink.write text sink).2 }
  | generator {machine : Machine G S} {generator : G} : Change machine { machine with generator }
  | quit {machine : Machine G S} : Change machine { machine with done := true }

/-- A change leaves the store alone or changes it. -/
theorem Change.store_cases {machine after : Machine G S} (h : Change machine after) :
    after.toStore = machine.toStore ∨ Store.Change machine.toStore after.toStore := by
  cases h with
  | store hstore => exact .inr hstore
  | _ => exact .inl rfl

theorem storeChanges {machine after : Machine G S} (h : ReflTransGen Change machine after) :
    ReflTransGen Store.Change machine.toStore after.toStore := by
  induction h with
  | refl => exact .refl
  | tail _ hchange ih =>
    rcases hchange.store_cases with heq | hstore
    · rwa [heq]
    · exact ih.tail hstore

theorem wellFormed_of_changes {machine after : Machine G S}
    (hchanges : ReflTransGen Change machine after) (h : machine.toStore.WellFormed) :
    after.toStore.WellFormed :=
  h.changes (storeChanges hchanges)

/-- The sink, if there is one, never refuses a text. -/
def TakesAll (machine : Machine G S) : Prop :=
  ∀ sink, machine.sink = some sink → Sink.Unfailing sink

theorem Change.takesAll {machine after : Machine G S} (h : Change machine after)
    (hmachine : machine.TakesAll) : after.TakesAll := by
  cases h with
  | output hsink =>
    intro sink heq
    cases heq
    exact (hmachine _ hsink).write _
  | _ => exact hmachine

/-- The error halts the machine, or says that the sink has refused a text. -/
def Raises (machine : Machine G S) (error : Error) : Prop :=
  error.halting ∨ (∃ reason, error = .sinkRefused reason) ∧ ¬ machine.TakesAll

theorem Raises.faults {machine : Machine G S} {error : Error} (h : machine.Raises error) :
    error.Faults := by
  rcases h with h | ⟨⟨text, rfl⟩, -⟩
  · exact ⟨Error.halting_ne_noLine h, Error.halting_ne_outsideTable h⟩
  · exact ⟨fun _ => Error.noConfusion, fun _ => Error.noConfusion⟩

theorem Raises.halting {machine : Machine G S} {error : Error} (h : machine.Raises error)
    (hmachine : machine.TakesAll) : error.halting :=
  h.resolve_right fun hrefused => hrefused.2 hmachine

/-- An operation may fail with the error: it can halt the machine with it, or the sink refuses a text. -/
def Throws (machine : Machine G S) (error : Error) : Prop :=
  error.operational ∨ (∃ reason, error = .sinkRefused reason) ∧ ¬ machine.TakesAll

theorem Throws.raises {machine : Machine G S} {error : Error} (h : machine.Throws error) :
    machine.Raises error :=
  h.imp_left Error.halting_of_operational

/-- Steps on a machine make changes; their errors halt the machine. -/
def law : Law (Machine G S) where
  Change := Change
  Good machine := machine.toStore.WellFormed
  Raises := Throws
  good_of_change hchange := wellFormed_of_changes (.single hchange)
  raises_of_change hchange h := h.imp_right fun hrefused => ⟨hrefused.1, mt hchange.takesAll hrefused.2⟩

theorem Throws.of_changes {machine after : Machine G S} {error : Error}
    (hchanges : ReflTransGen Change machine after) (h : after.Throws error) : machine.Throws error :=
  @Law.raises_of_changes _ law _ _ _ hchanges h

end

/-! ## The pieces -/

theorem perform_nextByte (machine : Machine G S) :
    nextByte.perform machine =
      match machine.image.readByte machine.pc with
      | .ok byte => (.ok byte, { machine with pc := machine.pc + 1 })
      | .error error => (.error error, machine) := by
  unfold nextByte
  cases h : machine.image.readByte machine.pc with
  | error e => rw [Exec.perform_bind_error (by rw [Exec.perform_query, h])]
  | ok byte => rw [Exec.perform_bind_ok (by rw [Exec.perform_query, h])]; rfl

/-- The program counter behind a byte is not outside the image. -/
theorem pc_le_of_nextByte {machine behind : Machine G S} {byte : UInt8}
    (h : nextByte.perform machine = (.ok byte, behind)) :
    behind.pc.toNat ≤ behind.image.length.toNat := by
  rw [perform_nextByte] at h
  cases hread : machine.image.readByte machine.pc with
  | error e =>
    rw [hread] at h
    cases h
  | ok value =>
    rw [hread] at h
    cases h
    exact Image.behind_readByte hread

theorem perform_jumpTo (target : Int) (machine : Machine G S) :
    (jumpTo target).perform machine =
      if target < 0 ∨ target ≥ machine.image.length.toNat then (.error (.jump target), machine)
      else (.ok (), { machine with pc := target.toNat.toUInt32 }) := by
  unfold jumpTo
  rw [Exec.perform_bind_ok (Exec.perform_get machine)]
  dsimp only
  split
  · rfl
  · rfl

section Pieces
variable {α : Type}

/-- The step touches nothing but the sink. -/
def PrintsOnly (step : Exec (Machine G S) α) : Prop :=
  ∀ machine, ∃ sink, (step.perform machine).2 = { machine with sink }

theorem PrintsOnly.getting {next : Machine G S → Exec (Machine G S) α}
    (h : ∀ machine, PrintsOnly (next machine)) : PrintsOnly (get >>= next) := by
  intro machine
  rw [Exec.perform_bind_ok (Exec.perform_get machine)]
  exact h machine machine

variable [Sink S]

theorem obeys_onStore {step : Exec Store α} (h : step.Obeys Store.law) :
    (onStore step : Exec (Machine G S) α).Obeys law :=
  .within h (fun _ _ => rfl) (fun _ => rfl) (fun _ _ _ => rfl) (fun _ _ hchange => .store hchange)
    (fun _ hgood => hgood) fun _ _ hraises => .inl hraises

theorem obeys_setVariable (number : UInt8) (value : UInt16) :
    (onStore (Store.write number value) : Exec (Machine G S) Unit).Obeys law :=
  obeys_onStore (Store.obeys_write number value)

theorem obeys_onImage {step : Exec Image α} (h : step.Obeys Image.law) :
    (onImage step : Exec (Machine G S) α).Obeys law :=
  .within h (fun _ _ => rfl) (fun _ => rfl) (fun _ _ _ => rfl)
    (fun _ _ hwrite => .store (.write hwrite)) (fun _ hgood => hgood.image)
    fun _ _ hraises => .inl hraises

theorem obeys_look {read : Image → Except Error α}
    (h : ∀ image, image.WellFormed → Guarded (read image)) :
    (Exec.query fun machine : Machine G S => read machine.image).Obeys law :=
  .query fun machine hgood error he => .inl (h machine.image hgood.image error he)

theorem obeys_nextByte : (nextByte : Exec (Machine G S) UInt8).Obeys law := by
  refine .of_outcome ?_
  intro machine hgood
  rw [perform_nextByte]
  cases h : machine.image.readByte machine.pc with
  | error e => exact .inr ⟨e, rfl, .refl, .inl (Image.readByte_guarded hgood.image _ e h)⟩
  | ok byte => exact .inl ⟨byte, rfl, .single (.goTo (Image.behind_readByte h))⟩

theorem obeys_jumpTo (target : Int) : (jumpTo target : Exec (Machine G S) Unit).Obeys law := by
  refine .of_outcome ?_
  intro machine _
  rw [perform_jumpTo]
  split
  · exact .inr ⟨_, rfl, .refl, .inl rfl⟩
  · rename_i hinside
    refine .inl ⟨(), rfl, .single (.goTo ?_)⟩
    rw [Nat.toUInt32, UInt32.toNat_ofNat']
    exact Nat.le_trans (Nat.mod_le _ _) (by omega)

theorem obeys_jump (offset : Int) :
    (do jumpTo ((← get).pc.toNat + offset - 2) : Exec (Machine G S) Unit).Obeys law :=
  .getting fun _ _ => obeys_jumpTo _

theorem perform_print (text : List UInt8) (machine : Machine G S) :
    (print text).perform machine =
      match machine.sink with
      | none => (.ok (), machine)
      | some sink =>
        if text.isEmpty then (.ok (), machine)
        else
          (match (Sink.write text sink).1 with
            | none => .ok ()
            | some reason => .error (.sinkRefused reason),
            { machine with sink := some (Sink.write text sink).2 }) := by
  unfold print
  rw [Exec.perform_bind_ok (Exec.perform_get machine)]
  cases machine.sink with
  | none => rfl
  | some sink =>
    dsimp only
    split
    · rfl
    · rw [Exec.perform_bind_ok (Exec.perform_set _ _)]
      cases (Sink.write text sink).1 with
      | none => rfl
      | some reason => rfl

theorem obeys_print (text : List UInt8) : (print text : Exec (Machine G S) Unit).Obeys law := by
  refine .of_outcome ?_
  intro machine _
  rw [perform_print]
  cases hsink : machine.sink with
  | none => exact .inl ⟨(), rfl, .refl⟩
  | some sink =>
    dsimp only
    split
    · exact .inl ⟨(), rfl, .refl⟩
    · cases hrefusal : (Sink.write text sink).1 with
      | none => exact .inl ⟨(), rfl, .single (.output hsink)⟩
      | some reason =>
        refine .inr ⟨_, rfl, .single (.output hsink), .inr ⟨⟨reason, rfl⟩, ?_⟩⟩
        exact fun htakes => Sink.not_unfailing hrefusal (htakes sink hsink)

theorem obeys_printDecoded {decoded : Text.Decoded}
    (h : ∀ error, decoded.failure = some error → error.operational ∨ error.recoverable) :
    (printDecoded decoded : Exec (Machine G S) Unit).Obeys law := by
  unfold printDecoded
  cases hfailure : decoded.failure with
  | none => exact obeys_print _
  | some error =>
    dsimp only
    split
    · exact obeys_print _
    · rename_i hfatal
      exact .throw fun _ _ => .inl ((h error hfailure).resolve_right hfatal)

theorem obeys_printString (address : UInt32) :
    (printString address : Exec (Machine G S) Unit).Obeys law :=
  .getting fun _ hgood => obeys_printDecoded fun _ he => Text.decode_failure hgood.image _ _ _ he

theorem obeys_printObject (object : UInt16) :
    (printObject object : Exec (Machine G S) Unit).Obeys law :=
  .getting fun _ hgood => obeys_printDecoded fun _ he => Object.name_failure hgood.image _ _ _ he

theorem printsOnly_print (text : List UInt8) :
    PrintsOnly (print text : Exec (Machine G S) Unit) := by
  intro machine
  rw [perform_print]
  cases machine.sink with
  | none => exact ⟨machine.sink, rfl⟩
  | some sink =>
    by_cases hempty : text.isEmpty
    · dsimp only
      rw [if_pos hempty]
      exact ⟨machine.sink, rfl⟩
    · dsimp only
      rw [if_neg hempty]
      exact ⟨_, rfl⟩

theorem printsOnly_printDecoded (decoded : Text.Decoded) :
    PrintsOnly (printDecoded decoded : Exec (Machine G S) Unit) := by
  unfold printDecoded
  cases decoded.failure with
  | none => exact printsOnly_print _
  | some error =>
    by_cases hrecoverable : error.recoverable
    · simp only [hrecoverable, if_true]
      exact printsOnly_print _
    · simp only [hrecoverable, Bool.false_eq_true, if_false]
      exact fun machine => ⟨machine.sink, rfl⟩

theorem printsOnly_printString (address : UInt32) :
    PrintsOnly (printString address : Exec (Machine G S) Unit) :=
  .getting fun _ => printsOnly_printDecoded _

theorem printsOnly_printObject (object : UInt16) :
    PrintsOnly (printObject object : Exec (Machine G S) Unit) :=
  .getting fun _ => printsOnly_printDecoded _

theorem obeys_skipString :
    (do
      let behind ← Exec.query fun machine : Machine G S => Text.endOf machine.image machine.pc
      setPC behind).Obeys law := by
  refine .of_outcome ?_
  intro machine hgood
  cases h : Text.endOf machine.image machine.pc with
  | error e =>
    rw [Exec.perform_bind_error (by rw [Exec.perform_query, h])]
    exact .inr ⟨e, rfl, .refl, .inl (Text.endOf_guarded hgood.image _ e h)⟩
  | ok behind =>
    rw [Exec.perform_bind_ok (by rw [Exec.perform_query, h])]
    exact .inl ⟨(), rfl, .single (.goTo (Text.endOf_bounds h).2)⟩

theorem obeys_printInline : (printInline : Exec (Machine G S) Unit).Obeys law :=
  .getting fun machine _ => .bind (obeys_printString machine.pc) fun _ => obeys_skipString

theorem obeys_storeLine (line : List UInt8) (text parse : UInt32) :
    (storeLine line text parse : Exec (Machine G S) Unit).Obeys law :=
  .getting fun _ _ => obeys_onImage (InputBuffer.obeys_fill _ _ _ _)

theorem obeys_draw [Generator G] (range : Int) : (draw range : Exec (Machine G S) UInt16).Obeys law := by
  refine .of_outcome ?_
  intro machine _
  unfold draw
  rw [Exec.perform_bind_ok (Exec.perform_get machine)]
  dsimp only
  split
  · exact .inl ⟨_, rfl, .single .generator⟩
  · exact .inl ⟨_, rfl, .single .generator⟩

end Pieces

/-! ## Operations that may return -/

section
variable [Sink S]

/-- From a well-formed store, the step makes changes and then returns, or makes changes only. -/
def Finishes (step : Exec (Machine G S) Unit) : Prop :=
  ∀ machine : Machine G S, machine.toStore.WellFormed →
    (∃ before value, ReflTransGen Change machine before ∧
      step.perform machine = (returnValue value).perform before) ∨
    (ReflTransGen Change machine (step.perform machine).2 ∧
      ∀ error, (step.perform machine).1 = .error error → machine.Throws error)

theorem Finishes.of_obeys {step : Exec (Machine G S) Unit} (h : step.Obeys law) : Finishes step :=
  fun machine hgood => .inr ⟨h.changes machine hgood, h.raises machine hgood⟩

theorem Finishes.last {α : Type} {step : Exec (Machine G S) α} {next : α → Exec (Machine G S) Unit}
    (h : step.Obeys law) (hnext : ∀ value, Finishes (next value)) : Finishes (step >>= next) := by
  intro machine hgood
  have hchanges := h.changes machine hgood
  have hraises := h.raises machine hgood
  rcases hp : step.perform machine with ⟨e | value, middle⟩ <;> rw [hp] at hchanges hraises
  · rw [Exec.perform_bind_error hp]
    refine .inr ⟨hchanges, ?_⟩
    intro error he
    cases he
    exact hraises _ rfl
  · rw [Exec.perform_bind_ok hp]
    rcases hnext value middle (wellFormed_of_changes hchanges hgood) with
      ⟨before, returned, hbefore, heq⟩ | ⟨hafter, herrors⟩
    · exact .inl ⟨before, returned, hchanges.trans hbefore, heq⟩
    · refine .inr ⟨hchanges.trans hafter, ?_⟩
      intro error he
      exact (herrors error he).of_changes hchanges

theorem closed_finishes [Generator G] :
    Closed (fun {α} (step : Exec (Machine G S) α) => step.Obeys law) Finishes where
  pure := .pure
  throw h := .throw fun _ _ => .inl h
  bind := .bind
  onStore h _ := obeys_onStore h
  look := obeys_look
  nextByte := obeys_nextByte
  jump := obeys_jump
  print := obeys_print
  printString := obeys_printString
  printObject := obeys_printObject
  printInline := obeys_printInline
  draw := obeys_draw
  quit := .of_obeys (.of_outcome fun _ _ => .inl ⟨_, rfl, .single .quit⟩)
  whole := .of_obeys
  last := .last
  returnValue value := fun machine _ => .inl ⟨machine, value, .refl, rfl⟩

end

/-- Leaving a routine: the stack and the program counter go back to the caller, then the result is
stored. -/
theorem perform_returnValue (value : UInt16) (machine : Machine G S) :
    (returnValue value).perform machine =
      match machine.calls.top? with
      | none => (.ok (), { machine with done := true })
      | some frame =>
        match machine.stack.leave frame.savedFloor with
        | .error error => (.error error, machine)
        | .ok stack =>
          if frame.discardResult then
            (.ok (), { machine with calls := machine.calls.pop, stack, pc := frame.returnPC })
          else
            (onStore (Store.write frame.storeVariable value)).perform
              { machine with calls := machine.calls.pop, stack, pc := frame.returnPC } := by
  unfold returnValue
  rw [Exec.perform_bind_ok (Exec.perform_get machine)]
  cases machine.calls.top? with
  | none => rfl
  | some frame =>
    dsimp only
    cases machine.stack.leave frame.savedFloor with
    | error e => rw [Exec.perform_bind_error (Exec.perform_ofExcept _ _)]
    | ok stack =>
      rw [Exec.perform_bind_ok (Exec.perform_ofExcept _ _), Exec.perform_bind_ok (Exec.perform_set _ _)]
      dsimp only
      split
      · rfl
      · rfl

/-! ## Calls -/

/-- A routine is entered at `body`: its frame has the way back, and its floor is the top of the
stack. -/
inductive Enters (machine : Machine G S) (storeVariable : UInt8) : Machine G S → Prop
  | mk {frame : Frame} {calls : CallStack} {body : UInt32}
      (hpush : machine.calls.push frame = .ok calls) (hreturn : frame.returnPC = machine.pc)
      (hstore : frame.storeVariable = storeVariable) (hkeeps : frame.discardResult = false)
      (hfloor : frame.savedFloor = machine.stack.floor) (hlocals : frame.numLocals ≤ maxLocals)
      (hbody : body.toNat ≤ machine.image.length.toNat) :
      Enters machine storeVariable
        { machine with calls, stack := machine.stack.enter, pc := body }

theorem readWords_guarded {image : Image} (h : image.WellFormed) (address : UInt32) (count : Nat) :
    Guarded (readWords image address count) := by
  induction count generalizing address with
  | zero => exact .ok []
  | succ count ih =>
    exact .bind (Image.readWord_guarded h address) fun _ _ => .bind (ih _) fun _ _ => .pure _

theorem length_of_readWords {image : Image} {address : UInt32} {count : Nat} {words : List UInt16}
    (h : readWords image address count = .ok words) : words.length = count := by
  induction count generalizing address words with
  | zero =>
    cases h
    rfl
  | succ count ih =>
    obtain ⟨word, -, h⟩ := exists_of_bind_eq_ok h
    obtain ⟨rest, hrest, h⟩ := exists_of_bind_eq_ok h
    cases h
    rw [List.length_cons, ih hrest]

theorem length_overlay (defaults arguments : List UInt16) :
    (overlay defaults arguments).length = defaults.length := by
  fun_induction overlay defaults arguments with
  | case1 => rfl
  | case2 => rfl
  | case3 _ defaults argument arguments ih => rw [List.length_cons, List.length_cons, ih]

theorem enterRoutine_guarded {image : Image} (h : image.WellFormed) (routine : UInt32)
    (arguments : List UInt16) : Guarded (enterRoutine image routine arguments) := by
  refine .bind (Image.readByte_guarded h routine) ?_
  intro count _
  split
  · exact .error rfl
  · refine .bind (readWords_guarded h _ _) ?_
    intro defaults _
    dsimp only
    split
    · exact .error rfl
    · exact .pure _

theorem of_enterRoutine {image : Image} {routine body : UInt32} {arguments values : List UInt16}
    (h : enterRoutine image routine arguments = .ok (values, body)) :
    values.length ≤ maxLocals ∧ body.toNat ≤ image.length.toNat := by
  obtain ⟨count, -, h⟩ := exists_of_bind_eq_ok h
  split at h
  · cases h
  · rename_i hcount
    obtain ⟨defaults, hdefaults, h⟩ := exists_of_bind_eq_ok h
    dsimp only at h
    split at h
    · cases h
    · rename_i hbody
      cases h
      refine ⟨?_, ?_⟩
      · rw [length_overlay, length_of_readWords hdefaults]
        omega
      · exact Nat.le_of_lt (UInt32.lt_iff_toNat_lt.mp (UInt32.not_le.mp hbody))

theorem of_bind {frame after : Frame} {values : List UInt16} (h : frame.bind values = .ok after) :
    after = { frame with locals := after.locals, numLocals := values.length } := by
  unfold Frame.bind at h
  split at h
  · cases h
    rfl
  · cases h

/-- The calls with the frame of a routine on top, and the address of its body. -/
def entered (machine : Machine G S) (packed : UInt16) (arguments : List UInt16)
    (storeVariable : UInt8) : Except Error (CallStack × UInt32) := do
  let (values, body) ← enterRoutine machine.image (unpackAddress packed) arguments
  let frame ← Frame.bind
    { returnPC := machine.pc, storeVariable, numLocals := 0, savedFloor := machine.stack.floor } values
  let calls ← machine.calls.push frame
  return (calls, body)

theorem perform_leaveStack (saved : Int) (machine : Machine G S) :
    (leaveStack saved).perform machine =
      match machine.stack.leave saved with
      | .ok stack => (.ok (), { machine with stack })
      | .error error => (.error error, machine) := by
  unfold leaveStack
  rw [Exec.perform_bind_ok (Exec.perform_get machine)]
  cases machine.stack.leave saved with
  | error e => rw [Exec.perform_bind_error (Exec.perform_ofExcept _ _)]
  | ok stack => rw [Exec.perform_bind_ok (Exec.perform_ofExcept _ _), Exec.perform_set]

/-- A frame that is one too many leaves no trace: the floor is raised for it and put back. -/
theorem perform_openFrame {frame : Frame} (body : UInt32) {machine : Machine G S}
    (h : frame.savedFloor = machine.stack.floor) :
    (openFrame frame body).perform machine =
      match machine.calls.push frame with
      | .ok calls => (.ok (), { machine with calls, stack := machine.stack.enter, pc := body })
      | .error error => (.error error, machine) := by
  unfold openFrame
  rw [Exec.perform_bind_ok (Exec.perform_modify _ _), Exec.perform_bind_ok (Exec.perform_get _)]
  dsimp only
  cases machine.calls.push frame with
  | ok calls => rfl
  | error e =>
    have hback := perform_leaveStack frame.savedFloor { machine with stack := machine.stack.enter }
    dsimp only at hback ⊢
    rw [h, machine.stack.leave_enter] at hback
    rw [h, Exec.perform_bind_ok hback, Exec.perform_throw]

theorem perform_callRoutine (packed : UInt16) (arguments : List UInt16) (storeVariable : UInt8)
    (machine : Machine G S) :
    (callRoutine packed arguments storeVariable).perform machine =
      if packed = 0 then (onStore (Store.write storeVariable 0)).perform machine
      else
        match machine.entered packed arguments storeVariable with
        | .ok (calls, body) =>
          (.ok (), { machine with calls, stack := machine.stack.enter, pc := body })
        | .error error => (.error error, machine) := by
  unfold callRoutine entered
  split
  · rfl
  · rw [Exec.perform_bind_ok (Exec.perform_get machine)]
    cases enterRoutine machine.image (unpackAddress packed) arguments with
    | error e => rw [Exec.perform_bind_error (Exec.perform_ofExcept _ _)]; rfl
    | ok routine =>
      rw [Exec.perform_bind_ok (Exec.perform_ofExcept _ _), ok_bind]
      dsimp only
      cases hframe : Frame.bind
        ⟨machine.pc, storeVariable, false, Vector.replicate maxLocals 0, 0, machine.stack.floor⟩
        routine.1 with
      | error e => rw [Exec.perform_bind_error (Exec.perform_ofExcept _ _)]; rfl
      | ok frame =>
        have hfloor : frame.savedFloor = machine.stack.floor := by rw [of_bind hframe]
        rw [Exec.perform_bind_ok (Exec.perform_ofExcept _ _), perform_openFrame routine.2 hfloor, ok_bind]
        cases machine.calls.push frame with
        | error e => rfl
        | ok calls => rfl

theorem entered_guarded (packed : UInt16) (arguments : List UInt16) (storeVariable : UInt8)
    {machine : Machine G S} (h : machine.toStore.WellFormed) :
    Guarded (machine.entered packed arguments storeVariable) := by
  refine .bind (enterRoutine_guarded h.image _ _) ?_
  intro routine hroutine
  have hlength := (of_enterRoutine hroutine).1
  refine .bind ?_ fun frame _ => .bind ?_ fun _ _ => .pure _
  · unfold Frame.bind
    rw [if_pos hlength]
    exact .ok _
  · unfold CallStack.push
    split
    · exact .error rfl
    · exact .ok _

theorem enters_of_entered {packed : UInt16} {arguments : List UInt16} {storeVariable : UInt8}
    {machine : Machine G S} {calls : CallStack} {body : UInt32}
    (h : machine.entered packed arguments storeVariable = .ok (calls, body)) :
    Enters machine storeVariable { machine with calls, stack := machine.stack.enter, pc := body } := by
  obtain ⟨⟨values, address⟩, hroutine, h⟩ := exists_of_bind_eq_ok h
  obtain ⟨frame, hbind, h⟩ := exists_of_bind_eq_ok h
  obtain ⟨pushed, hpush, h⟩ := exists_of_bind_eq_ok h
  cases h
  obtain ⟨hlength, hbody⟩ := of_enterRoutine hroutine
  have hframe := of_bind hbind
  refine .mk hpush ?_ ?_ ?_ ?_ ?_ hbody
  · rw [hframe]
  · rw [hframe]
  · rw [hframe]
  · rw [hframe]
  · rw [hframe]
    exact hlength

/-- A call stores 0, or fails and leaves the machine as it was, or enters a routine. -/
theorem callRoutine_cases (packed : UInt16) (arguments : List UInt16) (storeVariable : UInt8)
    {machine : Machine G S} (h : machine.toStore.WellFormed) :
    (callRoutine packed arguments storeVariable : Exec (Machine G S) Unit).perform machine =
      (onStore (Store.write storeVariable 0)).perform machine ∨
    (∃ error : Error, error.operational ∧
      (callRoutine packed arguments storeVariable).perform machine = (.error error, machine)) ∨
    ∃ after, Enters machine storeVariable after ∧
      (callRoutine packed arguments storeVariable).perform machine = (.ok (), after) := by
  rw [perform_callRoutine]
  split
  · exact .inl rfl
  · right
    cases hentered : machine.entered packed arguments storeVariable with
    | error e => exact .inl ⟨e, entered_guarded packed arguments storeVariable h e hentered, rfl⟩
    | ok routine => exact .inr ⟨_, enters_of_entered hentered, rfl⟩

/-! ## Lines of input -/

theorem perform_nextLine (machine : Machine G S) :
    nextLine.perform machine =
      match machine.input with
      | none => (.error (.noLine .noSource), machine)
      | some source =>
        match source.next.1 with
        | .ok line => (.ok line, { machine with input := some source.next.2 })
        | .error reason => (.error (.noLine reason), { machine with input := some source.next.2 }) := by
  unfold nextLine
  rw [Exec.perform_bind_ok (Exec.perform_get machine)]
  cases machine.input with
  | none => rfl
  | some source =>
    dsimp only
    rw [Exec.perform_bind_ok (Exec.perform_set _ _)]
    cases source.next.1 with
    | error reason => rfl
    | ok line => rfl

/-- Asking for a line gives one or reports that there is none, and touches the input only. -/
theorem nextLine_cases (machine : Machine G S) :
    ∃ input, (∃ line, nextLine.perform machine = (.ok line, { machine with input })) ∨
      ∃ reason, nextLine.perform machine = (.error (.noLine reason), { machine with input }) := by
  rw [perform_nextLine]
  cases hinput : machine.input with
  | none => exact ⟨machine.input, .inr ⟨.noSource, rfl⟩⟩
  | some source =>
    refine ⟨some source.next.2, ?_⟩
    dsimp only
    cases source.next.1 with
    | error reason => exact .inr ⟨reason, rfl⟩
    | ok line => exact .inl ⟨line, rfl⟩

/-! ## All operations -/

/-- What an operation can do to a machine, with the result it ends in. -/
inductive Effect [Sink S] (machine : Machine G S) (operation : Operation) :
    Except Error Unit × Machine G S → Prop
  | changes {outcome : Except Error Unit × Machine G S} (h : ReflTransGen Change machine outcome.2)
      (herror : ∀ error, outcome.1 = .error error → machine.Throws error) :
      Effect machine operation outcome
  | returns {before : Machine G S} {value : UInt16} (h : ReflTransGen Change machine before) :
      Effect machine operation ((returnValue value).perform before)
  | enters {storeVariable : UInt8} {behind after : Machine G S} (hoperation : operation = .call)
      (hbyte : nextByte.perform machine = (.ok storeVariable, behind))
      (henters : Enters behind storeVariable after) : Effect machine operation (.ok (), after)
  | waits {reason : InputFailure} {input : Option LineSource} (hoperation : operation = .readLine) :
      Effect machine operation (.error (.noLine reason), { machine with input })
  | restarts (hoperation : operation = .restart) : Effect machine operation (.ok (), machine.restart)

theorem Effect.of_obeys [Sink S] {machine : Machine G S} {operation : Operation} {step : Exec (Machine G S) Unit}
    (h : step.Obeys law) (hgood : machine.toStore.WellFormed) :
    Effect machine operation (step.perform machine) :=
  .changes (h.changes machine hgood) (h.raises machine hgood)

section
variable [Generator G] [Sink S]

theorem effect_call {instruction : Instruction} (hinstruction : instruction.WellFormed)
    {machine : Machine G S} (h : machine.toStore.WellFormed) :
    Effect machine .call ((operate .call instruction).perform machine) := by
  unfold operate
  dsimp only
  rw [hinstruction.checkArguments]
  rcases hbyte : nextByte.perform machine with ⟨e | storeVariable, behind⟩
  · rw [Exec.perform_bind_error hbyte]
    have hchanges := obeys_nextByte.changes machine h
    have hraises := obeys_nextByte.raises machine h
    rw [hbyte] at hchanges hraises
    refine .changes hchanges ?_
    intro error he
    cases he
    exact hraises _ rfl
  · rw [Exec.perform_bind_ok hbyte, Exec.perform_bind_ok (Exec.perform_ofExcept _ _)]
    have hstores : (nextByte >>= fun _ => onStore (Store.write storeVariable 0) :
        Exec (Machine G S) Unit).Obeys law :=
      .bind obeys_nextByte fun _ => obeys_setVariable storeVariable 0
    have hstored : Effect machine .call _ := .of_obeys hstores h
    rw [Exec.perform_bind_ok hbyte] at hstored
    have hbehind : behind.toStore.WellFormed := by
      have hgood := obeys_nextByte.good h
      rwa [hbyte] at hgood
    cases instruction.arguments with
    | nil => exact hstored
    | cons packed arguments =>
      rcases callRoutine_cases packed arguments storeVariable hbehind with
        heq | ⟨e, he, heq⟩ | ⟨after, henters, heq⟩
      · dsimp only
        rw [heq]
        exact hstored
      · dsimp only
        rw [heq]
        have hchanges := obeys_nextByte.changes machine h
        rw [hbyte] at hchanges
        refine .changes hchanges ?_
        intro error herror
        cases herror
        exact .inl he
      · dsimp only
        rw [heq]
        exact .enters rfl hbyte henters

theorem effect_readLine (instruction : Instruction) {machine : Machine G S}
    (h : machine.toStore.WellFormed) :
    Effect machine .readLine ((operate .readLine instruction).perform machine) := by
  unfold operate
  dsimp only
  obtain ⟨input, ⟨line, hline⟩ | ⟨reason, hline⟩⟩ := nextLine_cases machine
  · rw [Exec.perform_bind_ok hline]
    have hstore := @obeys_storeLine G S _ line instruction.operands[0].toUInt32 instruction.operands[1].toUInt32
    refine .changes (.head .input (hstore.changes _ h)) ?_
    intro error he
    exact law.raises_of_change .input (hstore.raises { machine with input } h error he)
  · rw [Exec.perform_bind_error hline]
    exact .waits rfl

/-- **All that an operation can do.** -/
theorem operate_effect (operation : Operation) {instruction : Instruction}
    (hinstruction : instruction.WellFormed) {machine : Machine G S} (h : machine.toStore.WellFormed) :
    Effect machine operation ((operate operation instruction).perform machine) := by
  by_cases hordinary : operation.ordinary
  · rcases closed_finishes.operate hordinary hinstruction machine h with
      ⟨before, value, hbefore, heq⟩ | ⟨hchanges, herrors⟩
    · rw [heq]
      exact .returns hbefore
    · exact .changes hchanges herrors
  · cases operation with
    | call => exact effect_call hinstruction h
    | readLine => exact effect_readLine instruction h
    | restart => exact .restarts rfl
    | _ => exact absurd rfl hordinary

end

end Machine

end StoryMachine
