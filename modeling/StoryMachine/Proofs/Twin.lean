import StoryMachine.Proofs.Session

/-!
# Machines that nobody can tell apart

* `Fault.anonymous`, `Reply.anonymous` : what is reported, without the name of the session;
* `Machine.Twin heard` : two machines differ in nothing but their sessions' names and the cells above the
  top of the stack, which hold no words. If the output is not heard, they may also differ in what they
  print to and in how they decode text;
* `Machine.Impartial heard` : a step does the same on twins. If the output is not heard, a machine may fail
  where its twin does not, since a text can be refused by one sink only or decoded by one machine only.
  The pieces of operations are impartial, and so is every operation (`impartial_operate`);
* `twin_step`, `twin_drive`, `twin_serve` : **twins give the same answers and stay twins.** If the output
  is not heard, this is so as long as no answer is a fault (`Calm`);
* `output_noninterference` : what is printed, and how, has no influence on what a story does.
-/

namespace StoryMachine

open Exec (Agrees Matches)

/-! ## Reports without the session's name -/

/-- The fault without the name of the session. -/
def Fault.anonymous (fault : Fault) : Fault :=
  { fault with session := "" }

namespace Failure

/-- The failure without the name of the session. -/
def anonymous : Failure → Failure
  | .fault raised => .fault raised.anonymous
  | failure => failure

/-- The failure has halted the machine. -/
def isFault : Failure → Bool
  | .fault _ => true
  | _ => false

end Failure

namespace Reply

/-- The reply without the name of the session. -/
def anonymous : Reply → Reply
  | stepped failure => stepped (failure.map Failure.anonymous)
  | ran outcome => ran { outcome with failure := outcome.failure.map Failure.anonymous }
  | nothing => nothing

/-- The reply reports a fault. -/
def isFault (reply : Reply) : Bool :=
  reply.failure?.any Failure.isFault

/-- Only a fault names the session. -/
theorem anonymous_of_not_isFault {reply : Reply} (h : reply.isFault = false) :
    reply.anonymous = reply := by
  have hfailure : ∀ failure : Option Failure, failure.any Failure.isFault = false →
      failure.map Failure.anonymous = failure := by
    intro failure hany
    match failure with
    | none => rfl
    | some (.fault _) => cases hany
    | some (.noLine _) => rfl
    | some (.broken _) => rfl
  cases reply with
  | stepped failure => exact congrArg stepped (hfailure failure h)
  | ran outcome => rw [anonymous, hfailure outcome.failure h]
  | nothing => rfl

end Reply

namespace Machine

variable {G S : Type}

/-! ## Twins -/

/-- Nothing but the sessions' names and the cells above the top of the stack differ. If the output is not
heard, the sinks and the settings of text may differ too. -/
structure Twin (heard : Bool) (machine other : Machine G S) : Prop where
  words : machine.toStore.SameWords other.toStore
  limits_eq : machine.settings.machine = other.settings.machine
  pc_eq : machine.pc = other.pc
  pending_eq : machine.pending = other.pending
  halted_eq : machine.halted.map Fault.anonymous = other.halted.map Fault.anonymous
  done_eq : machine.done = other.done
  input_eq : machine.input = other.input
  generator_eq : machine.generator = other.generator
  unicode_eq : machine.unicode = other.unicode
  text_eq : heard = true → machine.settings.text = other.settings.text
  sink_eq : heard = true → machine.sink = other.sink

/-- Twins with well-formed stores. -/
def Linked (heard : Bool) (machine other : Machine G S) : Prop :=
  machine.toStore.WellFormed ∧ Twin heard machine other

/-- If the output is not heard, a machine may fault where its twin does not. -/
def Excused (heard : Bool) (error : Error) : Prop :=
  heard = false ∧ error.Faults

/-- The step does the same on twins. -/
def Impartial {α : Type} (heard : Bool) (step : Exec (Machine G S) α) : Prop :=
  step.Agrees (Linked heard) (Excused heard)

section Pieces
variable {α : Type} {heard : Bool}

section
variable [Sink S]

/-- A step that obeys the law of machines leaves the stores well-formed. -/
theorem impartial_of_obeys {step : Exec (Machine G S) α} (hobeys : step.Obeys law)
    (h : step.Agrees (Twin heard) (Excused heard)) : Impartial heard step :=
  h.good hobeys

theorem impartial_onStore {step : Exec Store α} (h : step.Obeys Store.law)
    (hblind : Store.Blind step) : Impartial heard (onStore step : Exec (Machine G S) α) := by
  refine impartial_of_obeys (obeys_onStore h) (.within hblind (fun _ _ htwin => htwin.words) ?_)
  intro machine other store store' htwin hstore
  exact { htwin with words := hstore }

theorem impartial_setVariable (number : UInt8) (value : UInt16) :
    Impartial heard (onStore (Store.write number value) : Exec (Machine G S) Unit) :=
  impartial_onStore (Store.obeys_write number value) (Store.blind_write number value)

theorem impartial_onImage {step : Exec Image α} (h : step.Obeys Image.law) :
    Impartial heard (onImage step : Exec (Machine G S) α) := by
  refine impartial_of_obeys (obeys_onImage h)
    (.within (.eq step) (fun _ _ htwin => htwin.words.image_eq) ?_)
  rintro machine other image _ htwin rfl
  exact { htwin with words := { htwin.words with image_eq := rfl } }

end

theorem impartial_look (read : Image → Except Error α) :
    Impartial heard (Exec.query fun machine : Machine G S => read machine.image) := by
  refine .query ?_
  intro machine other hlinked
  rw [hlinked.2.words.image_eq]

theorem impartial_nextByte : Impartial heard (nextByte : Exec (Machine G S) UInt8) := by
  refine .bind (.query ?_) fun _ => .bind (.modify ?_) fun _ => .pure _
  · intro machine other hlinked
    rw [hlinked.2.words.image_eq, hlinked.2.pc_eq]
  · intro machine other hlinked
    exact ⟨hlinked.1, { hlinked.2 with pc_eq := by rw [hlinked.2.pc_eq] }⟩

theorem impartial_setPC (address : UInt32) :
    Impartial heard (setPC address : Exec (Machine G S) Unit) := by
  refine .modify ?_
  intro machine other hlinked
  exact ⟨hlinked.1, { hlinked.2 with pc_eq := rfl }⟩

theorem impartial_jumpTo (target : Int) :
    Impartial heard (jumpTo target : Exec (Machine G S) Unit) := by
  refine .getting ?_
  intro machine other hlinked
  dsimp only
  rw [hlinked.2.words.image_eq]
  by_cases houtside : target < 0 ∨ target ≥ other.image.length.toNat
  · rw [if_pos houtside]
    exact Agrees.bind (.throw _) (fun _ => impartial_setPC _) machine other hlinked
  · rw [if_neg houtside]
    exact impartial_setPC _ machine other hlinked

theorem impartial_jump (offset : Int) :
    Impartial heard (do jumpTo ((← get).pc.toNat + offset - 2) : Exec (Machine G S) Unit) := by
  refine .getting ?_
  intro machine other hlinked
  rw [hlinked.2.pc_eq]
  exact impartial_jumpTo _ machine other hlinked

theorem impartial_quit :
    Impartial heard (modify fun machine => { machine with done := true } : Exec (Machine G S) Unit) := by
  refine .modify ?_
  intro machine other hlinked
  exact ⟨hlinked.1, { hlinked.2 with done_eq := rfl }⟩

theorem Twin.restart {machine other : Machine G S} (h : Twin heard machine other) :
    Twin heard machine.restart other.restart := by
  have hwords : machine.restart.toStore.SameWords other.restart.toStore := by
    refine ⟨?_, h.words.stack.clear, ?_⟩
    · rw [Machine.restart, Machine.restart, h.words.image_eq]
    · rw [Machine.restart, Machine.restart, h.words.calls_eq]
  have hpc : machine.restart.pc = other.restart.pc := by
    rw [Machine.restart, Machine.restart, h.words.image_eq]
  exact { h with words := hwords, pc_eq := hpc, pending_eq := rfl, halted_eq := rfl, done_eq := rfl }

theorem impartial_restart : Impartial heard (modify restart : Exec (Machine G S) Unit) := by
  refine .modify ?_
  intro machine other hlinked
  exact ⟨(wellFormed_restart hlinked.1).store, hlinked.2.restart⟩

/-! ## Printing -/

section
variable [Sink S]

/-- Whatever twins print, if it is not heard they stay twins, or one of them has failed. -/
theorem impartial_of_printsOnly {step : Exec (Machine G S) Unit} (hobeys : step.Obeys law)
    (h : PrintsOnly step) : Impartial false step := by
  intro machine other hlinked
  have hgood : other.toStore.WellFormed := hlinked.2.words.wellFormed hlinked.1
  have hraises := hobeys.raises machine hlinked.1
  have hraises' := hobeys.raises other hgood
  obtain ⟨sink, hsink⟩ := h machine
  obtain ⟨sink', hsink'⟩ := h other
  rcases hp : step.perform machine with ⟨error | value, after⟩ <;> rw [hp] at hraises hsink
  · exact .left ⟨rfl, (hraises error rfl).raises.faults⟩
  · rcases hp' : step.perform other with ⟨error | value', after'⟩ <;> rw [hp'] at hraises' hsink'
    · exact .right ⟨rfl, (hraises' error rfl).raises.faults⟩
    · subst hsink hsink'
      exact .same ⟨hlinked.1, { hlinked.2 with text_eq := nofun, sink_eq := nofun }⟩

theorem impartial_print (text : List UInt8) :
    Impartial heard (print text : Exec (Machine G S) Unit) := by
  cases heard with
  | false => exact impartial_of_printsOnly (obeys_print text) (printsOnly_print text)
  | true =>
    intro machine other hlinked
    have hsink := hlinked.2.sink_eq rfl
    rw [perform_print, perform_print, hsink]
    cases other.sink with
    | none => exact .same hlinked
    | some sink =>
      by_cases hempty : text.isEmpty
      · simp only [hempty, if_true]
        exact .same hlinked
      · simp only [hempty, Bool.false_eq_true, if_false]
        have hafter : Linked true { machine with sink := some (Sink.write text sink).2 }
            { other with sink := some (Sink.write text sink).2 } :=
          ⟨hlinked.1, { hlinked.2 with sink_eq := fun _ => rfl }⟩
        cases (Sink.write text sink).1 with
        | none => exact .same hafter
        | some reason => exact .same hafter

theorem impartial_printDecoded (decoded : Text.Decoded) :
    Impartial heard (printDecoded decoded : Exec (Machine G S) Unit) := by
  unfold printDecoded
  cases decoded.failure with
  | none => exact impartial_print _
  | some error =>
    by_cases hrecoverable : error.recoverable
    · simp only [hrecoverable, if_true]
      exact impartial_print _
    · simp only [hrecoverable, Bool.false_eq_true, if_false]
      exact .throw _

/-- Printing what is decoded from the image by the settings of text. If the output is not heard, the texts
may differ. -/
theorem impartial_printing (decode : Image → TextSettings → Text.Decoded)
    (hobeys : (do
      let machine ← get
      printDecoded (decode machine.image machine.settings.text) : Exec (Machine G S) Unit).Obeys law) :
    Impartial heard (do
      let machine ← get
      printDecoded (decode machine.image machine.settings.text) : Exec (Machine G S) Unit) := by
  cases heard with
  | false => exact impartial_of_printsOnly hobeys (.getting fun _ => printsOnly_printDecoded _)
  | true =>
    refine .getting ?_
    intro machine other hlinked
    rw [hlinked.2.words.image_eq, hlinked.2.text_eq rfl]
    exact impartial_printDecoded _ machine other hlinked

theorem impartial_printString (address : UInt32) :
    Impartial heard (printString address : Exec (Machine G S) Unit) :=
  impartial_printing
    (fun image settings => Text.decode image settings.rules settings.maxStringLength address)
    (obeys_printString address)

theorem impartial_printObject (object : UInt16) :
    Impartial heard (printObject object : Exec (Machine G S) Unit) :=
  impartial_printing
    (fun image settings => Object.name image settings.rules settings.maxStringLength object)
    (obeys_printObject object)

/-- Where the text ends does not depend on how it is decoded. -/
theorem impartial_printInline : Impartial heard (printInline : Exec (Machine G S) Unit) := by
  refine .getting ?_
  intro machine other hlinked
  rw [hlinked.2.pc_eq]
  -- The text is scanned twice. What the first scan prints is for the sink only, and the second one reads
  -- nothing but the image.
  refine Agrees.bind (impartial_printString other.pc) (fun _ => .bind (.query ?_) impartial_setPC)
    machine other hlinked
  intro before before' hbefore
  rw [hbefore.2.words.image_eq, hbefore.2.pc_eq]

end

/-! ## Routines, input and random numbers -/

theorem impartial_returnValue [Sink S] (value : UInt16) :
    Impartial heard (returnValue value : Exec (Machine G S) Unit) := by
  intro machine other hlinked
  rw [perform_returnValue, perform_returnValue, ← hlinked.2.words.calls_eq]
  cases htop : machine.calls.top? with
  | none => exact .same ⟨hlinked.1, { hlinked.2 with done_eq := rfl }⟩
  | some frame =>
    -- The floor is not above the top, so no cell above the top comes back.
    obtain ⟨stack, stack', hleave, hleave', hsame⟩ := hlinked.2.words.stack.leave
      hlinked.1.floor_nonneg hlinked.1.floor_le frame.savedFloor
    simp only [hleave, hleave']
    have hleft : Linked heard
        { machine with calls := machine.calls.pop, stack, pc := frame.returnPC }
        { other with calls := machine.calls.pop, stack := stack', pc := frame.returnPC } :=
      ⟨hlinked.1.leave htop hleave, { hlinked.2 with
        words := ⟨hlinked.2.words.image_eq, hsame, rfl⟩, pc_eq := rfl }⟩
    by_cases hdiscard : frame.discardResult
    · simp only [hdiscard, if_true]
      exact .same hleft
    · simp only [hdiscard, Bool.false_eq_true, if_false]
      exact impartial_setVariable _ _ _ _ hleft

theorem Twin.entered_eq {machine other : Machine G S} (h : Twin heard machine other) (packed : UInt16)
    (arguments : List UInt16) (storeVariable : UInt8) :
    machine.entered packed arguments storeVariable = other.entered packed arguments storeVariable := by
  unfold entered
  rw [h.words.image_eq, h.pc_eq, h.words.stack.floor_eq, h.words.calls_eq]

theorem impartial_callRoutine [Sink S] (packed : UInt16) (arguments : List UInt16)
    (storeVariable : UInt8) :
    Impartial heard (callRoutine packed arguments storeVariable : Exec (Machine G S) Unit) := by
  intro machine other hlinked
  rw [perform_callRoutine, perform_callRoutine]
  by_cases hzero : packed = 0
  · rw [if_pos hzero, if_pos hzero]
    exact impartial_setVariable _ _ _ _ hlinked
  · rw [if_neg hzero, if_neg hzero, ← hlinked.2.entered_eq]
    cases hentered : machine.entered packed arguments storeVariable with
    | error e => exact .same hlinked
    | ok routine =>
      obtain ⟨hpush, -, -, -, hfloor, hlocals, -⟩ := enters_of_entered hentered
      have hstack := hlinked.2.words.stack.enter
      exact .same ⟨hlinked.1.enter hpush hfloor hlocals, { hlinked.2 with
        words := ⟨hlinked.2.words.image_eq, hstack, rfl⟩, pc_eq := rfl }⟩

theorem impartial_nextLine : Impartial heard (nextLine : Exec (Machine G S) (List UInt8)) := by
  intro machine other hlinked
  rw [perform_nextLine, perform_nextLine, hlinked.2.input_eq]
  cases other.input with
  | none => exact .same hlinked
  | some source =>
    have hafter : Linked heard { machine with input := some source.next.2 }
        { other with input := some source.next.2 } :=
      ⟨hlinked.1, { hlinked.2 with input_eq := rfl }⟩
    dsimp only
    cases source.next.1 with
    | error reason => exact .same hafter
    | ok line => exact .same hafter

theorem impartial_storeLine [Sink S] (line : List UInt8) (text parse : UInt32) :
    Impartial heard (storeLine line text parse : Exec (Machine G S) Unit) := by
  refine .getting ?_
  intro machine other hlinked
  rw [hlinked.2.unicode_eq]
  exact impartial_onImage (InputBuffer.obeys_fill _ _ _ _) machine other hlinked

theorem impartial_draw [Generator G] (range : Int) :
    Impartial heard (draw range : Exec (Machine G S) UInt16) := by
  refine .getting ?_
  intro machine other hlinked
  dsimp only
  rw [hlinked.2.generator_eq]
  by_cases hrange : range > 0
  · simp only [hrange, if_true]
    exact .same ⟨hlinked.1, { hlinked.2 with generator_eq := rfl }⟩
  · simp only [hrange, if_false]
    exact .same ⟨hlinked.1, { hlinked.2 with generator_eq := rfl }⟩

end Pieces

/-! ## Failures -/

section
variable {heard : Bool}

/-- The output is heard, or the failure is not a fault. -/
def Calm (heard : Bool) (failure : Option Failure) : Prop :=
  heard = false → failure.any Failure.isFault = false

/-- The failures are the same but for the sessions' names, and the machines behind them are twins. -/
structure SameAnswer (heard : Bool) (outcome other : Option Failure × Machine G S) : Prop where
  failure_eq : outcome.1.map Failure.anonymous = other.1.map Failure.anonymous
  twin : Twin heard outcome.2 other.2

theorem Twin.fail {machine other : Machine G S} (h : Twin heard machine other)
    (instruction : Instruction) (error : Error) :
    SameAnswer heard (fail instruction error machine) (fail instruction error other) := by
  cases error with
  | noLine reason => exact ⟨rfl, { h with pending_eq := rfl }⟩
  | outsideTable table => exact ⟨rfl, h⟩
  | _ => exact ⟨rfl, { h with halted_eq := rfl }⟩

theorem not_calm_fail {error : Error} (h : Excused heard error) (instruction : Instruction)
    (machine : Machine G S) : ¬ Calm heard (fail instruction error machine).1 := by
  obtain ⟨hheard, herror⟩ := h
  intro hcalm
  have hfault := hcalm hheard
  unfold Machine.fail at hfault
  split at hfault
  · exact herror.ne_noLine _ rfl
  · exact herror.ne_outsideTable _ rfl
  · cases hfault

theorem sameAnswer_finish (instruction : Instruction) {outcome outcome' : Except Error Unit × Machine G S}
    (h : Matches (Linked heard) (Excused heard) outcome outcome')
    (hcalm : Calm heard (finish instruction outcome).1)
    (hcalm' : Calm heard (finish instruction outcome').1) :
    SameAnswer heard (finish instruction outcome) (finish instruction outcome') := by
  cases h with
  | @same result after after' hlinked =>
    cases result with
    | error e => exact hlinked.2.fail instruction e
    | ok value => exact ⟨rfl, hlinked.2⟩
  | left hexcused => exact absurd hcalm (not_calm_fail hexcused instruction _)
  | right hexcused => exact absurd hcalm' (not_calm_fail hexcused instruction _)

/-- The same instruction is decoded from twins, and the machines behind it are twins. -/
theorem Linked.decoded {machine other : Machine G S} (h : Linked heard machine other) :
    (Instruction.decode machine.pc machine.toStore).1 = (Instruction.decode other.pc other.toStore).1 ∧
    Linked heard
      { machine with
        toStore := (Instruction.decode machine.pc machine.toStore).2
        pc := (Instruction.decode machine.pc machine.toStore).1.next }
      { other with
        toStore := (Instruction.decode other.pc other.toStore).2
        pc := (Instruction.decode other.pc other.toStore).1.next } := by
  obtain ⟨hdecoded, hwords⟩ := Instruction.decode_sameWords machine.pc h.2.words
  have hpops := Instruction.decode_pops machine.pc machine.toStore
  rw [h.2.pc_eq] at hdecoded hwords hpops ⊢
  refine ⟨hdecoded, h.1.changes (Store.changes_of_pops hpops), { h.2 with words := hwords, pc_eq := ?_ }⟩
  rw [hdecoded]

end

/-! ## Operations -/

section
variable [Generator G] [Sink S] {heard : Bool} {machine other : Machine G S}

theorem closed_impartial :
    Closed (fun {α} (step : Exec (Machine G S) α) => Impartial heard step) (Impartial heard) where
  pure := .pure
  throw _ := .throw _
  bind := .bind
  onStore := impartial_onStore
  look _ := impartial_look _
  nextByte := impartial_nextByte
  jump := impartial_jump
  print := impartial_print
  printString := impartial_printString
  printObject := impartial_printObject
  printInline := impartial_printInline
  draw := impartial_draw
  quit := impartial_quit
  whole h := h
  last := .bind
  returnValue := impartial_returnValue

/-- **Every operation does the same on twins.** -/
theorem impartial_operate (operation : Operation) {instruction : Instruction}
    (hinstruction : instruction.WellFormed) :
    Impartial heard (operate operation instruction : Exec (Machine G S) Unit) := by
  by_cases hordinary : operation.ordinary
  · exact closed_impartial.operate hordinary hinstruction
  · cases operation with
    | restart => exact impartial_restart
    | call =>
      refine .bind impartial_nextByte fun storeVariable => .bind (.ofExcept _) fun arguments => ?_
      cases arguments with
      | nil => exact impartial_setVariable storeVariable 0
      | cons packed arguments => exact impartial_callRoutine packed arguments storeVariable
    | readLine => exact .bind impartial_nextLine fun line => impartial_storeLine line _ _
    | _ => exact absurd rfl hordinary

/-! ## Steps and runs -/

theorem sameAnswer_execute {instruction : Instruction} (hinstruction : instruction.WellFormed)
    (h : Linked heard machine other) (hcalm : Calm heard (execute instruction machine).1)
    (hcalm' : Calm heard (execute instruction other).1) :
    SameAnswer heard (execute instruction machine) (execute instruction other) := by
  obtain ⟨entry, hfind⟩ := hinstruction.exists_find
  cases entry with
  | none =>
    have hpolicy_eq : other.settings.machine.opcodePolicy = machine.settings.machine.opcodePolicy := by
      rw [h.2.limits_eq]
    cases hpolicy : machine.settings.machine.opcodePolicy with
    | skipLenient =>
      rw [execute_eq_skip hfind hpolicy, execute_eq_skip hfind (hpolicy_eq.trans hpolicy)]
      exact ⟨rfl, h.2⟩
    | fatal =>
      rw [execute_eq_fail hfind hpolicy, execute_eq_fail hfind (hpolicy_eq.trans hpolicy)]
      exact h.2.fail instruction _
  | some operation =>
    rw [execute_eq_finish hfind] at hcalm hcalm' ⊢
    rw [execute_eq_finish hfind]
    exact sameAnswer_finish instruction (impartial_operate operation hinstruction _ _ h) hcalm hcalm'

/-- **Twins give the same answer to a step and stay twins.** -/
theorem twin_step (hgood : machine.WellFormed) (h : Twin heard machine other)
    (hcalm : Calm heard machine.step.1) (hcalm' : Calm heard other.step.1) :
    SameAnswer heard machine.step other.step := by
  have hhalted_eq := h.halted_eq
  unfold step at hcalm hcalm' ⊢
  cases hhalted : machine.halted with
  | some fault =>
    rw [hhalted] at hhalted_eq
    obtain ⟨fault', hhalted', hfault⟩ := Option.map_eq_some_iff.mp hhalted_eq.symm
    simp only [hhalted']
    exact ⟨congrArg (some ∘ Failure.fault) hfault.symm, h⟩
  | none =>
    rw [hhalted] at hhalted_eq hcalm
    have hhalted' := Option.map_eq_none_iff.mp hhalted_eq.symm
    simp only [hhalted'] at hcalm' ⊢
    by_cases hdone : machine.done
    · rw [if_pos hdone, if_pos (h.done_eq ▸ hdone)]
      exact ⟨rfl, h⟩
    · rw [if_neg hdone] at hcalm ⊢
      rw [if_neg (h.done_eq ▸ hdone)] at hcalm' ⊢
      cases hpending : machine.pending with
      | some instruction =>
        have hpending' : other.pending = some instruction := h.pending_eq.symm.trans hpending
        simp only [hpending, hpending'] at hcalm hcalm' ⊢
        exact sameAnswer_execute (hgood.pending instruction hpending).wellFormed
          ⟨hgood.store, { h with pending_eq := rfl, halted_eq := rfl }⟩ hcalm hcalm'
      | none =>
        have hpending' : other.pending = none := h.pending_eq.symm.trans hpending
        obtain ⟨hdecoded, hbehind⟩ := Linked.decoded ⟨hgood.store, h⟩
        simp only [hhalted, hhalted', hpending, hpending', ← hdecoded] at hcalm hcalm' hbehind ⊢
        cases hfailure : (Instruction.decode machine.pc machine.toStore).1.failure with
        | some error => exact hbehind.2.fail _ error
        | none =>
          simp only [hfailure] at hcalm hcalm'
          exact sameAnswer_execute (Instruction.decode_wellFormed _ _) hbehind hcalm hcalm'

/-- **Twins give the same answer to a run and stay twins.** -/
theorem twin_drive (budget : Nat) (hgood : machine.WellFormed) (h : Twin heard machine other)
    (hcalm : Calm heard (machine.drive budget).1.failure)
    (hcalm' : Calm heard (other.drive budget).1.failure) :
    (machine.drive budget).1.left = (other.drive budget).1.left ∧
    SameAnswer heard ((machine.drive budget).1.failure, (machine.drive budget).2)
      ((other.drive budget).1.failure, (other.drive budget).2) := by
  induction budget generalizing machine other with
  | zero => exact ⟨rfl, rfl, h⟩
  | succ budget ih =>
    unfold drive at hcalm hcalm' ⊢
    by_cases hdone : machine.done
    · rw [if_pos hdone, if_pos (h.done_eq ▸ hdone)]
      exact ⟨rfl, rfl, h⟩
    · rw [if_neg hdone] at hcalm ⊢
      rw [if_neg (h.done_eq ▸ hdone)] at hcalm' ⊢
      have hstep := twin_step hgood h
      have hgood' := hgood.step
      rcases hs : machine.step with ⟨_ | failure, after⟩ <;>
        rcases hs' : other.step with ⟨_ | failure', after'⟩ <;>
        simp only [hs, hs'] at hcalm hcalm' hstep hgood' ⊢
      · have hsame := hstep (fun _ => rfl) fun _ => rfl
        exact ih hgood' hsame.twin hcalm hcalm'
      -- Only a fault can be on one side alone, and the answers are calm.
      · have hsame := hstep (fun _ => rfl) hcalm'
        cases hsame.failure_eq
      · have hsame := hstep hcalm fun _ => rfl
        cases hsame.failure_eq
      · exact ⟨trivial, hstep hcalm hcalm'⟩

/-! ## Sessions -/

/-- **Twins give the same answer to a request and stay twins.** -/
theorem twin_answer (request : Request) (hgood : machine.WellFormed) (h : Twin heard machine other)
    (hcalm : Calm heard (machine.answer request).1.failure?)
    (hcalm' : Calm heard (other.answer request).1.failure?) :
    (machine.answer request).1.anonymous = (other.answer request).1.anonymous ∧
      Twin heard (machine.answer request).2 (other.answer request).2 := by
  cases request with
  | step =>
    have hsame := twin_step hgood h hcalm hcalm'
    exact ⟨congrArg Reply.stepped hsame.failure_eq, hsame.twin⟩
  | run fuel budget =>
    have hlimit : other.limit? budget = machine.limit? budget := by
      rw [limit?, limit?, h.limits_eq]
    simp only [answer, run, hlimit] at hcalm hcalm' ⊢
    obtain ⟨hleft, hsame⟩ := twin_drive _ hgood h hcalm hcalm'
    refine ⟨?_, hsame.twin⟩
    have hfailure := hsame.failure_eq
    simp only [runFor, Reply.anonymous, hleft] at hfailure ⊢
    rw [hfailure]
  | restart => exact ⟨rfl, h.restart⟩
  | setInput input => exact ⟨rfl, { h with input_eq := rfl }⟩

/-- **Twins give the same answers to all that is asked, and stay twins.** -/
theorem twin_serve (requests : List Request) (hgood : machine.WellFormed)
    (h : Twin heard machine other)
    (hcalm : ∀ reply ∈ (machine.serve requests).1, Calm heard reply.failure?)
    (hcalm' : ∀ reply ∈ (other.serve requests).1, Calm heard reply.failure?) :
    (machine.serve requests).1.map Reply.anonymous = (other.serve requests).1.map Reply.anonymous ∧
      Twin heard (machine.serve requests).2 (other.serve requests).2 := by
  induction requests generalizing machine other with
  | nil => exact ⟨rfl, h⟩
  | cons request rest ih =>
    simp only [serve, List.forall_mem_cons] at hcalm hcalm'
    obtain ⟨hreply, hafter⟩ := twin_answer request hgood h hcalm.1 hcalm'.1
    obtain ⟨hreplies, hlast⟩ := ih (hgood.answer request) hafter hcalm.2 hcalm'.2
    refine ⟨?_, hlast⟩
    simp only [serve, List.map_cons]
    rw [hreply, hreplies]

/-! ## Text and output -/

/-- **What is printed, and how text is decoded, has no influence on what a story does.** Take two sessions
of a story with the same limits, input and generator, and ask the same of both, for instance any number of
steps. If no reply is a fault, the replies are the same, and so are the machines but for the settings of
text, the sinks and the names. -/
theorem output_noninterference {file : Array UInt8} {image : Image}
    (hload : Image.load file = .ok image) {settings settings' : Settings}
    (hlimits : settings.machine = settings'.machine) (session session' : String)
    (input : Option LineSource) (sink sink' : Option S) (generator : G) (unicode : Text.Unicode)
    (requests : List Request)
    (hquiet : ∀ reply ∈ ((new image settings session input sink generator unicode).serve requests).1,
      reply.isFault = false)
    (hquiet' : ∀ reply ∈ ((new image settings' session' input sink' generator unicode).serve requests).1,
      reply.isFault = false) :
    ((new image settings session input sink generator unicode).serve requests).1 =
      ((new image settings' session' input sink' generator unicode).serve requests).1 ∧
    Twin false ((new image settings session input sink generator unicode).serve requests).2
      ((new image settings' session' input sink' generator unicode).serve requests).2 := by
  have hgood := wellFormed_new (Image.load_wellFormed hload) settings session input sink generator unicode
  have hwords : (new image settings session input sink generator unicode).toStore.SameWords
      (new image settings' session' input sink' generator unicode).toStore := by
    rw [new, new, hlimits]
    exact ⟨rfl, ⟨rfl, rfl, rfl⟩, rfl⟩
  have hgenerator : (new image settings session input sink generator unicode).generator =
      (new image settings' session' input sink' generator unicode).generator := by
    rw [new, new, hlimits]
  have hstart : Twin false (new image settings session input sink generator unicode)
      (new image settings' session' input sink' generator unicode) :=
    ⟨hwords, hlimits, rfl, rfl, rfl, rfl, rfl, hgenerator, rfl, nofun, nofun⟩
  obtain ⟨hreplies, htwin⟩ := twin_serve requests hgood hstart
    (fun reply hreply _ => hquiet reply hreply) fun reply hreply _ => hquiet' reply hreply
  refine ⟨?_, htwin⟩
  rwa [List.map_congr_left fun reply hreply => Reply.anonymous_of_not_isFault (hquiet reply hreply),
    List.map_congr_left fun reply hreply => Reply.anonymous_of_not_isFault (hquiet' reply hreply),
    List.map_id', List.map_id'] at hreplies

/-- A story that prints three letters and a new line, sets a global variable, pushes a word, and starts
over. -/
def loopingStory : Array UInt8 :=
  #[0x03, 0x00, 0x00, 0x00, 0x00, 0x00, 0x00, 0x40, 0x00, 0x00, 0x00, 0x00, 0x00, 0x10, 0x00, 0x40,
    0x00, 0x00, 0x00, 0x00, 0x00, 0x00, 0x00, 0x00, 0x00, 0x00, 0x00, 0x00, 0x00, 0x00, 0x00, 0x00,
    0x00, 0x00, 0x00, 0x00, 0x00, 0x00, 0x00, 0x00, 0x00, 0x00, 0x00, 0x00, 0x00, 0x00, 0x00, 0x00,
    0x00, 0x00, 0x00, 0x00, 0x00, 0x00, 0x00, 0x00, 0x00, 0x00, 0x00, 0x00, 0x00, 0x00, 0x00, 0x00,
    0xB2, 0x98, 0xC6, 0xBB, 0x0D, 0x10, 0x07, 0xE8, 0x7F, 0x05, 0xB7]

def loopingImage : Image where
  header := { Header.parse loopingStory with length := 0x4B }
  bytes := loopingStory
  pristine := loopingStory.extract 0 0x40

/-- A session of the story with settings of text. -/
def loopingMachine (text : TextSettings) : Machine Dice Transcript :=
  .new loopingImage { text } "" none (some {}) (.ofClock 0) .fifteen

theorem load_loopingStory : Image.load loopingStory = .ok loopingImage :=
  load_eq_ok (by decide +kernel)

/-- One session prints all letters and another only the first; else they are the same. -/
theorem output_noninterference_sample :
    ((loopingMachine {}).serve [.step, .step, .step]).2.sink.map Sink.written =
      some [0x61, 0x61, 0x61, 0x0A] ∧
    ((loopingMachine { maxStringLength := 1 }).serve [.step, .step, .step]).2.sink.map Sink.written =
      some [0x61, 0x0A] ∧
    ((loopingMachine {}).serve [.step, .step, .step]).1 =
      ((loopingMachine { maxStringLength := 1 }).serve [.step, .step, .step]).1 ∧
    Twin false ((loopingMachine {}).serve [.step, .step, .step]).2
      ((loopingMachine { maxStringLength := 1 }).serve [.step, .step, .step]).2 := by
  have hlimits : ({ text := {} } : Settings).machine =
      ({ text := { maxStringLength := 1 } } : Settings).machine := rfl
  have h := output_noninterference load_loopingStory hlimits "" "" none (some ({} : Transcript)) (some {})
    (Dice.ofClock 0) .fifteen [.step, .step, .step] (by decide +kernel) (by decide +kernel)
  exact ⟨by decide +kernel, by decide +kernel, h⟩

end

end Machine

end StoryMachine
