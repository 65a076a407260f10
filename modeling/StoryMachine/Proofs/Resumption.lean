import StoryMachine.Proofs.Reachable
import StoryMachine.Proofs.Unseen

/-!
# Waiting for input

A step that lacks a line has already moved the program counter and popped its operands. The instruction
waits in the machine, and the next step tries it again instead of decoding it anew.

* `Machine.withInput` : the machine with another input. No instruction but one that reads a line sees the
  difference (`step_withInput`);
* `Machine.Asks machine instruction before` : the next step reads a line from whatever input there is. A
  machine that has waited asks for the same line as before it waited (`Asks.waiting`);
* `LineSource.Yields source lines` : the source gives the lines in order and then fails forever;
* `Machine.trace` : the results and states of a run whose input is replaced by the next source each time a
  step lacks a line, without those steps;
* `resumption_transparent` : **the trace depends on the lines alone, and not on how they are cut into
  sources.**
-/

namespace StoryMachine

open Relation (ReflTransGen)

namespace Machine

variable {G S : Type}

/-- The machine with another input. -/
def withInput (source : Option LineSource) (machine : Machine G S) : Machine G S :=
  { machine with input := source }

/-! ## Steps that do not read a line -/

theorem finish_stack (instruction : Instruction) (outcome : Except Error Unit × Machine G S) :
    (finish instruction outcome).2.stack = outcome.2.stack := by
  rcases outcome with ⟨error | value, machine⟩
  · cases error <;> rfl
  · rfl

theorem fetched_withInput (source : Option LineSource) (machine : Machine G S) :
    (withInput source machine).fetched? =
      machine.fetched?.map fun fetched => (fetched.1, withInput source fetched.2) :=
  fetched_refit id (fun _ => source) machine

/-! ## Steps that read a line -/

/-- The next step reads a line from whatever input there is. -/
structure Asks (machine : Machine G S) (instruction : Instruction) (before : Machine G S) : Prop where
  asks : instruction.AsksForLine
  wellFormed : before.WellFormed
  fetched_eq : ∀ source,
    (withInput source machine).fetched? = some (instruction, withInput source before)

theorem Asks.of_fetched [Sink S] {machine before : Machine G S} {instruction : Instruction}
    (hgood : machine.WellFormed) (hfetched : machine.fetched? = some (instruction, before))
    (hasks : instruction.AsksForLine) : Asks machine instruction before := by
  refine ⟨hasks, hgood.moves (hgood.fetched hfetched).2, ?_⟩
  intro source
  rw [fetched_withInput, hfetched]
  rfl

/-- A machine that has waited asks for the same line as before. -/
theorem Asks.waiting {machine before : Machine G S} {instruction : Instruction}
    (h : Asks machine instruction before) (input : Option LineSource) :
    Asks { before with input, pending := some instruction } instruction before := by
  refine ⟨h.asks, h.wellFormed, ?_⟩
  intro source
  obtain ⟨hhalted, hdone, hpending⟩ := status_of_fetched (h.fetched_eq source)
  have hlive : ¬ (before.halted.isSome ∨ before.done) := by
    change before.halted = none at hhalted
    change before.done = false at hdone
    simp [hhalted, hdone]
  change before.pending = none at hpending
  unfold fetched? withInput
  rw [if_neg hlive]
  dsimp only
  rw [← hpending]

/-! ## Steps with another input -/

section
variable [Generator G] [Sink S]

/-- A step that does not read a line does the same with another input. -/
theorem step_withInput (source : Option LineSource) {machine : Machine G S} (hgood : machine.WellFormed)
    (hdeaf : ∀ instruction before, machine.fetched? = some (instruction, before) →
      Operation.find instruction.count instruction.number ≠ .ok (some .readLine)) :
    (withInput source machine).step = (machine.step.1, withInput source machine.step.2) := by
  refine step_refit id (fun _ => source) hgood ?_
  intro instruction before hfetched
  exact ⟨fun hline => absurd hline (hdeaf instruction before hfetched), fun _ => rfl⟩

theorem Asks.step {machine before : Machine G S} {instruction : Instruction}
    (h : Asks machine instruction before) :
    machine.step = execute instruction (withInput machine.input before) :=
  step_of_fetched (h.fetched_eq machine.input)

/-- A step that lacks a line has asked for it, and leaves the instruction waiting. -/
theorem of_noLine {machine : Machine G S} (hgood : machine.WellFormed) {reason : InputFailure}
    (hstep : machine.step.1 = some (.noLine reason)) :
    ∃ instruction before input, machine.fetched? = some (instruction, before) ∧
      Asks machine instruction before ∧
      machine.step.2 = { before with input, pending := some instruction } := by
  rcases step_failure hgood hstep with ⟨fault, hfault, -⟩ |
    ⟨_, instruction, before, input, -, hasks, hfetched, hafter⟩
  · cases hfault
  · exact ⟨instruction, before, input, hfetched, .of_fetched hgood hfetched hasks, hafter⟩

/-- The machine does not look at its input in the next step, which does not lack a line. -/
structure Deaf (machine : Machine G S) : Prop where
  step_eq : ∀ source, (withInput source machine).step = (machine.step.1, withInput source machine.step.2)
  ne_noLine : ∀ reason, machine.step.1 ≠ some (.noLine reason)

/-- **A step reads a line or is deaf.** -/
theorem deaf_or_asks {machine : Machine G S} (hgood : machine.WellFormed) :
    Deaf machine ∨ ∃ instruction before, Asks machine instruction before := by
  by_cases hasks : ∃ instruction before, Asks machine instruction before
  · exact .inr hasks
  refine .inl ⟨fun source => step_withInput source hgood ?_, fun reason hreason => ?_⟩
  · intro instruction before hfetched hfind
    have hinstruction := (hgood.fetched hfetched).1
    exact hasks ⟨instruction, before, .of_fetched hgood hfetched ⟨hinstruction, hfind⟩⟩
  · obtain ⟨instruction, before, -, -, hasks', -⟩ := of_noLine hgood hreason
    exact hasks ⟨instruction, before, hasks'⟩

end

end Machine

/-- The source gives the lines in order and then fails forever; no source gives no line. -/
def LineSource.Yields : Option LineSource → List (List UInt8) → Prop
  | none, lines => lines = []
  | some source, lines => source.replies = lines.map .ok

namespace Machine

open LineSource (Yields)

variable {G S : Type}

theorem nextLine_of_none {source : Option LineSource} (hsource : Yields source []) :
    ∃ reason, ∀ machine : Machine G S, nextLine.perform (withInput source machine) =
      (.error (.noLine reason), withInput source machine) := by
  cases source with
  | none => exact ⟨.noSource, fun machine => perform_nextLine _⟩
  | some source =>
    refine ⟨source.final, ?_⟩
    intro machine
    have hreplies : source.replies = [] := hsource
    have hnext : source.next = (.error source.final, source) := by
      unfold LineSource.next
      rw [hreplies]
    have hinput : (withInput (some source) machine).input = some source := rfl
    rw [perform_nextLine, hinput]
    dsimp only
    rw [hnext]
    rfl

theorem nextLine_of_cons {source : Option LineSource} {line : List UInt8} {rest : List (List UInt8)}
    (hsource : Yields source (line :: rest)) :
    ∃ behind, Yields behind rest ∧ ∀ machine : Machine G S,
      nextLine.perform (withInput source machine) = (.ok line, withInput behind machine) := by
  cases source with
  | none => cases hsource
  | some source =>
    refine ⟨some { source with replies := rest.map .ok }, rfl, ?_⟩
    intro machine
    have hreplies : source.replies = .ok line :: rest.map .ok := hsource
    have hnext : source.next = (.ok line, { source with replies := rest.map .ok }) := by
      unfold LineSource.next
      rw [hreplies]
    have hinput : (withInput (some source) machine).input = some source := rfl
    rw [perform_nextLine, hinput]
    dsimp only
    rw [hnext]
    rfl

theorem zero_lt_maxOperands : 0 < maxOperands := by decide

theorem one_lt_maxOperands : 1 < maxOperands := by decide

/-- Store a line and its words in the buffers that an instruction names. -/
def storeFor (instruction : Instruction) (line : List UInt8) : Exec (Machine G S) Unit :=
  storeLine line (instruction.operands.get ⟨0, zero_lt_maxOperands⟩).toUInt32
    (instruction.operands.get ⟨1, one_lt_maxOperands⟩).toUInt32

theorem storeFor_stack (instruction : Instruction) (line : List UInt8) (machine : Machine G S) :
    ((storeFor instruction line).perform machine).2.stack = machine.stack := by
  rw [storeFor, storeLine, Exec.perform_bind_ok (Exec.perform_get machine), onImage, Exec.perform_within]

theorem commutes_storeFor (source : Option LineSource) (instruction : Instruction)
    (line : List UInt8) : (storeFor instruction line).Commutes (withInput (G := G) (S := S) source) :=
  commutes_storeLine id (fun _ => source) line _ _

/-- The outcome of an instruction that has got a line to read. -/
def taken (instruction : Instruction) (line : List UInt8) (machine : Machine G S) :
    Option Failure × Machine G S :=
  finish instruction ((storeFor instruction line).perform machine)

/-- An instruction that has got a line completes or halts the machine. -/
theorem taken_spec [Sink S] (instruction : Instruction) (line : List UInt8) {machine : Machine G S}
    (hgood : machine.WellFormed) :
    (taken instruction line machine).2.WellFormed ∧
      ∀ reason, (taken instruction line machine).1 ≠ some (.noLine reason) := by
  have hstore : (storeFor instruction line : Exec (Machine G S) Unit).Obeys law := obeys_storeLine line _ _
  have hmoves := moves_of_changes (hstore.changes machine hgood.store)
  have hraises := hstore.raises machine hgood.store
  unfold taken
  rcases hp : (storeFor instruction line).perform machine with ⟨error | value, after⟩ <;>
    rw [hp] at hmoves hraises
  · have hfaults := (hraises error rfl).raises.faults
    obtain ⟨fault, rfl, hfail⟩ := fail_of_faults instruction after hfaults
    rw [finish, hfail]
    exact ⟨(hgood.moves hmoves).move (.halt hfaults), nofun⟩
  · exact ⟨hgood.moves hmoves, nofun⟩

section
variable [Generator G] [Sink S] {instruction : Instruction} {source : Option LineSource}

theorem operate_readLine (instruction : Instruction) :
    (operate .readLine instruction : Exec (Machine G S) Unit) =
      nextLine >>= storeFor instruction := rfl

/-- Without a line the instruction waits, and nothing else happens. -/
theorem execute_of_none (hasks : instruction.AsksForLine) (hsource : Yields source []) :
    ∃ reason, ∀ machine : Machine G S, execute instruction (withInput source machine) =
      (some (.noLine reason), { machine with input := source, pending := some instruction }) := by
  obtain ⟨reason, hline⟩ := nextLine_of_none (G := G) (S := S) hsource
  refine ⟨reason, ?_⟩
  intro machine
  rw [execute_eq_finish hasks.find_eq, operate_readLine, Exec.perform_bind_error (hline machine)]
  rfl

/-- What an instruction does with a line does not depend on where the line came from. -/
theorem execute_of_cons (hasks : instruction.AsksForLine) {line : List UInt8}
    {rest : List (List UInt8)} (hsource : Yields source (line :: rest)) :
    ∃ behind, Yields behind rest ∧ ∀ machine : Machine G S,
      execute instruction (withInput source machine) =
        ((taken instruction line machine).1, withInput behind (taken instruction line machine).2) := by
  obtain ⟨behind, hbehind, hline⟩ := nextLine_of_cons (G := G) (S := S) hsource
  refine ⟨behind, hbehind, ?_⟩
  intro machine
  have hstore := commutes_storeFor (G := G) (S := S) behind instruction line machine
  rw [execute_eq_finish hasks.find_eq, operate_readLine, Exec.perform_bind_ok (hline machine), hstore]
  exact finish_refit id (fun _ => behind) instruction _ _

end

/-! ## Machines that go on in the same way -/

/-- The machines differ in their inputs only, or ask for the same line. -/
inductive Alike (a b : Machine G S) : Prop
  | same (hgood : a.WellFormed) (h : withInput none b = withInput none a)
  | asking {instruction : Instruction} {before : Machine G S} (ha : Asks a instruction before)
      (hb : Asks b instruction before)

theorem Alike.of_inputs [Sink S] {machine : Machine G S} (hgood : machine.WellFormed)
    (first second : Option LineSource) : Alike (withInput first machine) (withInput second machine) :=
  .same (hgood.move (.change .input)) rfl

/-! ## Traces -/

section
variable [Generator G] [Sink S]

/-- The results and states of a run of `steps` steps. When a step lacks a line, the next source becomes
the input, and the step is left out. A state is recorded without its input. -/
def trace : Nat → List (Option LineSource) → Machine G S → List (Option Failure × Machine G S)
  | 0, _, _ => []
  | steps + 1, sources, machine =>
    match machine.step with
    | (some (.noLine _), waiting) =>
      match sources with
      | [] => trace steps [] waiting
      | source :: sources => trace steps sources (withInput source waiting)
    | (result, after) => (result, withInput none after) :: trace steps sources after

theorem trace_of_step {machine after : Machine G S} {result : Option Failure}
    (hstep : machine.step = (result, after)) (hresult : ∀ reason, result ≠ some (.noLine reason))
    (steps : Nat) (sources : List (Option LineSource)) :
    trace (steps + 1) sources machine = (result, withInput none after) :: trace steps sources after := by
  rw [trace, hstep]
  split
  · rename_i heq
    cases heq
    exact absurd rfl (hresult _)
  · rename_i heq
    cases heq
    rfl

theorem trace_of_wait {machine waiting : Machine G S} {reason : InputFailure}
    (hstep : machine.step = (some (.noLine reason), waiting)) (steps : Nat) :
    trace (steps + 1) [] machine = trace steps [] waiting := by
  rw [trace, hstep]

theorem trace_of_refill {machine waiting : Machine G S} {reason : InputFailure}
    (hstep : machine.step = (some (.noLine reason), waiting)) (steps : Nat)
    (source : Option LineSource) (sources : List (Option LineSource)) :
    trace (steps + 1) (source :: sources) machine = trace steps sources (withInput source waiting) := by
  rw [trace, hstep]

/-- Machines that are alike take the same step without looking at their inputs, or ask for the same
line. -/
theorem Alike.step_cases {a b : Machine G S} (h : Alike a b) :
    (∃ result after, after.WellFormed ∧ (∀ reason, result ≠ some (.noLine reason)) ∧
      a.step = (result, withInput a.input after) ∧ b.step = (result, withInput b.input after)) ∨
    ∃ instruction before, Asks a instruction before ∧ Asks b instruction before := by
  cases h with
  | asking ha hb => exact .inr ⟨_, _, ha, hb⟩
  | same hgood h =>
    have hb : ∀ source, withInput source b = withInput source a := by
      intro source
      have hboth : withInput source (withInput none b) = withInput source (withInput none a) := by rw [h]
      exact hboth
    rcases deaf_or_asks hgood with ⟨hstep, hresult⟩ | ⟨instruction, before, hasks⟩
    · refine .inl ⟨a.step.1, a.step.2, hgood.step, hresult, hstep a.input, ?_⟩
      rw [← hstep b.input, ← hb b.input]
      rfl
    · refine .inr ⟨instruction, before, hasks, hasks.asks, hasks.wellFormed, ?_⟩
      intro source
      rw [hb source]
      exact hasks.fetched_eq source

/-- An input and the sources that replace it one after the other give the lines between them. -/
inductive Feeds : Option LineSource → List (Option LineSource) → List (List UInt8) → Prop
  | last {source : Option LineSource} {lines : List (List UInt8)} (h : Yields source lines) :
      Feeds source [] lines
  | more {source next : Option LineSource} {sources : List (Option LineSource)}
      {chunk lines : List (List UInt8)} (h : Yields source chunk) (hnext : Feeds next sources lines) :
      Feeds source (next :: sources) (chunk ++ lines)

/-- The next line comes from the input, or from a source to come, or there is none. -/
theorem Feeds.input_cases {source : Option LineSource} {sources : List (Option LineSource)}
    {lines : List (List UInt8)} (h : Feeds source sources lines) :
    (Yields source [] ∧ sources = [] ∧ lines = []) ∨
    (∃ next rest, Yields source [] ∧ sources = next :: rest ∧ Feeds next rest lines) ∨
    ∃ line chunk rest, Yields source (line :: chunk) ∧ lines = line :: rest ∧
      ∀ behind, Yields behind chunk → Feeds behind sources rest := by
  cases h with
  | @last _ lines hsource =>
    cases lines with
    | nil => exact .inl ⟨hsource, rfl, rfl⟩
    | cons line rest => exact .inr (.inr ⟨line, rest, rest, hsource, rfl, fun _ h => .last h⟩)
  | @more _ next sources chunk lines hsource hnext =>
    cases chunk with
    | nil => exact .inr (.inl ⟨next, sources, hsource, rfl, hnext⟩)
    | cons line chunk =>
      exact .inr (.inr ⟨line, chunk, chunk ++ lines, hsource, rfl, fun _ h => .more h hnext⟩)

/-- What the cut run records, the run in one piece records. -/
theorem trace_of_cut (steps : Nat) {whole cut : Machine G S} {sources : List (Option LineSource)}
    {lines : List (List UInt8)} (halike : Alike whole cut) (hwhole : Yields whole.input lines)
    (hcut : Feeds cut.input sources lines) :
    ∃ count, trace count [] whole = trace steps sources cut := by
  induction steps generalizing whole cut sources lines with
  | zero => exact ⟨0, rfl⟩
  | succ steps ih =>
    rcases halike.step_cases with ⟨result, after, hgood, hresult, hstep, hstep'⟩ |
      ⟨instruction, before, hasks, hasks'⟩
    · obtain ⟨count, hcount⟩ := ih (.of_inputs hgood whole.input cut.input) hwhole hcut
      refine ⟨count + 1, ?_⟩
      rw [trace_of_step hstep hresult, trace_of_step hstep' hresult, hcount]
      rfl
    · rcases hcut.input_cases with ⟨hnone, rfl, rfl⟩ | ⟨next, rest, hnone, rfl, hrest⟩ |
        ⟨line, chunk, rest, hsome, rfl, hrest⟩
      · obtain ⟨reason, hwait⟩ := execute_of_none (G := G) (S := S) hasks'.asks hnone
        rw [trace_of_wait (hasks'.step.trans (hwait before))]
        exact ih (.asking hasks (hasks'.waiting cut.input)) hwhole hcut
      · obtain ⟨reason, hwait⟩ := execute_of_none (G := G) (S := S) hasks'.asks hnone
        rw [trace_of_refill (hasks'.step.trans (hwait before))]
        exact ih (.asking hasks (hasks'.waiting next)) hwhole hrest
      · obtain ⟨behind, hbehind, htaken⟩ := execute_of_cons (G := G) (S := S) hasks.asks hwhole
        obtain ⟨behind', hbehind', htaken'⟩ := execute_of_cons (G := G) (S := S) hasks'.asks hsome
        obtain ⟨hgood, hresult⟩ := taken_spec instruction line hasks.wellFormed
        obtain ⟨count, hcount⟩ := ih (.of_inputs hgood behind behind') hbehind (hrest behind' hbehind')
        refine ⟨count + 1, ?_⟩
        rw [trace_of_step (hasks.step.trans (htaken before)) hresult,
          trace_of_step (hasks'.step.trans (htaken' before)) hresult, hcount]
        rfl

/-- A machine that asks for a line gets the first one that its sources have, after as many waits as it
takes. -/
theorem trace_of_first_line {sources : List (Option LineSource)} {cut before : Machine G S}
    {instruction : Instruction} {line : List UInt8} {lines : List (List UInt8)}
    (hasks : Asks cut instruction before) (hcut : Feeds cut.input sources (line :: lines)) :
    ∃ waits behind rest, Feeds behind rest lines ∧ ∀ steps,
      trace (steps + 1 + waits) sources cut =
        ((taken instruction line before).1, withInput none (taken instruction line before).2) ::
          trace steps rest (withInput behind (taken instruction line before).2) := by
  have hnow : ∀ {cut : Machine G S} {sources chunk}, Asks cut instruction before →
      Yields cut.input (line :: chunk) → (∀ behind, Yields behind chunk → Feeds behind sources lines) →
      ∃ waits behind rest, Feeds behind rest lines ∧ ∀ steps,
        trace (steps + 1 + waits) sources cut =
          ((taken instruction line before).1, withInput none (taken instruction line before).2) ::
            trace steps rest (withInput behind (taken instruction line before).2) := by
    intro cut sources chunk hasks hsome hrest
    obtain ⟨behind, hbehind, htaken⟩ := execute_of_cons (G := G) (S := S) hasks.asks hsome
    obtain ⟨-, hresult⟩ := taken_spec instruction line hasks.wellFormed
    refine ⟨0, behind, sources, hrest behind hbehind, ?_⟩
    intro steps
    exact trace_of_step (hasks.step.trans (htaken before)) hresult steps sources
  induction sources generalizing cut with
  | nil =>
    rcases hcut.input_cases with ⟨-, -, hlines⟩ | ⟨_, _, -, hsources, -⟩ |
      ⟨first, chunk, rest, hsome, hlines, hrest⟩
    · cases hlines
    · cases hsources
    · cases hlines
      exact hnow hasks hsome hrest
  | cons next sources ih =>
    rcases hcut.input_cases with ⟨-, hsources, -⟩ | ⟨_, _, hnone, hsources, hnext⟩ |
      ⟨first, chunk, rest, hsome, hlines, hrest⟩
    · cases hsources
    · cases hsources
      obtain ⟨reason, hwait⟩ := execute_of_none (G := G) (S := S) hasks.asks hnone
      obtain ⟨waits, behind, rest, hrest, hfirst⟩ := ih (hasks.waiting next) hnext
      refine ⟨waits + 1, behind, rest, hrest, ?_⟩
      intro steps
      rw [← hfirst steps]
      exact trace_of_refill (hasks.step.trans (hwait before)) _ next sources
    · cases hlines
      exact hnow hasks hsome hrest

/-- What the run in one piece records, the cut run records. -/
theorem trace_of_whole (steps : Nat) {whole cut : Machine G S} {sources : List (Option LineSource)}
    {lines : List (List UInt8)} (halike : Alike whole cut) (hwhole : Yields whole.input lines)
    (hcut : Feeds cut.input sources lines) :
    ∃ count, trace count sources cut = trace steps [] whole := by
  induction steps generalizing whole cut sources lines with
  | zero => exact ⟨0, rfl⟩
  | succ steps ih =>
    rcases halike.step_cases with ⟨result, after, hgood, hresult, hstep, hstep'⟩ |
      ⟨instruction, before, hasks, hasks'⟩
    · obtain ⟨count, hcount⟩ := ih (.of_inputs hgood whole.input cut.input) hwhole hcut
      refine ⟨count + 1, ?_⟩
      rw [trace_of_step hstep hresult, trace_of_step hstep' hresult, hcount]
      rfl
    · cases lines with
      | nil =>
        obtain ⟨reason, hwait⟩ := execute_of_none (G := G) (S := S) hasks.asks hwhole
        rw [trace_of_wait (hasks.step.trans (hwait before))]
        exact ih (.asking (hasks.waiting whole.input) hasks') hwhole hcut
      | cons line lines =>
        obtain ⟨behind, hbehind, htaken⟩ := execute_of_cons (G := G) (S := S) hasks.asks hwhole
        obtain ⟨waits, behind', rest, hrest, hfirst⟩ := trace_of_first_line hasks' hcut
        obtain ⟨hgood, hresult⟩ := taken_spec instruction line hasks.wellFormed
        obtain ⟨count, hcount⟩ := ih (.of_inputs hgood behind behind') hbehind hrest
        refine ⟨count + 1 + waits, ?_⟩
        rw [hfirst, trace_of_step (hasks.step.trans (htaken before)) hresult, hcount]
        rfl

/-! ## Waiting and retrying -/

/-- A step that lacks a line and is repeated does and reports the same. -/
theorem step_step_of_noLine {machine : Machine G S} (hgood : machine.WellFormed)
    {lines : List (List UInt8)} (hinput : Yields machine.input lines) {reason : InputFailure}
    (hstep : machine.step.1 = some (.noLine reason)) : machine.step.2.step = machine.step := by
  obtain ⟨instruction, before, -, -, hasks, -⟩ := of_noLine hgood hstep
  cases lines with
  | nil =>
    obtain ⟨reason', hwait⟩ := execute_of_none (G := G) (S := S) hasks.asks hinput
    rw [hasks.step, hwait, (hasks.waiting machine.input).step]
    exact hwait before
  | cons line rest =>
    obtain ⟨behind, -, htaken⟩ := execute_of_cons (G := G) (S := S) hasks.asks hinput
    rw [hasks.step, htaken] at hstep
    exact absurd hstep ((taken_spec instruction line hasks.wellFormed).2 reason)

/-- Reading a line leaves the stack alone, whether or not there is one. -/
theorem execute_stack {instruction : Instruction} (hasks : instruction.AsksForLine)
    (machine : Machine G S) : (execute instruction machine).2.stack = machine.stack := by
  rw [execute_eq_finish hasks.find_eq, finish_stack, operate_readLine]
  obtain ⟨input, ⟨line, hline⟩ | ⟨reason, hline⟩⟩ := nextLine_cases machine
  · rw [Exec.perform_bind_ok hline, storeFor_stack]
  · rw [Exec.perform_bind_error hline]

/-- The operands of an instruction that lacks a line are popped when it is decoded, and not again. -/
theorem stack_of_noLine {machine : Machine G S} (hgood : machine.WellFormed) {reason : InputFailure}
    (hstep : machine.step.1 = some (.noLine reason)) :
    (machine.pending = none →
      machine.step.2.stack = (Instruction.decode machine.pc machine.toStore).2.stack) ∧
      ∀ source, (withInput source machine.step.2).step.2.stack = machine.step.2.stack := by
  obtain ⟨instruction, before, input, hfetched, hasks, hafter⟩ := of_noLine hgood hstep
  rw [hafter]
  refine ⟨fun hpending => ?_, fun source => ?_⟩
  · obtain ⟨-, -, ⟨hwaiting, -⟩ | ⟨-, -, -, rfl⟩⟩ := of_fetched hfetched
    · rw [hpending] at hwaiting
      cases hwaiting
    · rfl
  · rw [step_of_fetched ((hasks.waiting input).fetched_eq source), execute_stack hasks.asks]
    rfl

/-- **How the lines of input are cut into sources makes no difference.** A run whose input gives all
the lines and a run that gets them source by source, each time a step lacks a line, go through the same
results and states. Repeating a step that lacks a line changes nothing, and its operands are popped
once. -/
theorem resumption_transparent {file : Array UInt8} {image : Image}
    (hload : Image.load file = .ok image) {machine : Machine G S} (h : Reachable image machine) :
    (∀ {whole first : Option LineSource} {sources : List (Option LineSource)}
      {lines : List (List UInt8)}, Yields whole lines → Feeds first sources lines →
      (∀ steps, ∃ count, trace count [] (withInput whole machine) =
        trace steps sources (withInput first machine)) ∧
      ∀ steps, ∃ count, trace count sources (withInput first machine) =
        trace steps [] (withInput whole machine)) ∧
    ∀ reason, machine.step.1 = some (.noLine reason) →
      (∀ lines, Yields machine.input lines → machine.step.2.step = machine.step) ∧
      (machine.pending = none →
        machine.step.2.stack = (Instruction.decode machine.pc machine.toStore).2.stack) ∧
      ∀ source, (withInput source machine.step.2).step.2.stack = machine.step.2.stack := by
  have hgood := h.wellFormed (Image.load_wellFormed hload)
  constructor
  · intro whole first sources lines hwhole hcut
    have halike := Alike.of_inputs hgood whole first
    constructor
    · intro steps
      exact trace_of_cut steps halike hwhole hcut
    · intro steps
      exact trace_of_whole steps halike hwhole hcut
  · intro reason hstep
    refine ⟨?_, stack_of_noLine hgood hstep⟩
    intro lines hinput
    exact step_step_of_noLine hgood hinput hstep

theorem resumption_transparent_sample :
    (∃ count, trace count [none, some (.ofLines [[0x61]])] (withInput none sampleMachine) =
      trace 4 [] (withInput (some (.ofLines [[0x61]])) sampleMachine)) ∧
    sampleMachine.step.2.step.2.step.2.step = sampleMachine.step.2.step.2.step := by
  have hwhole : Yields (some (.ofLines [[0x61]])) [[0x61]] := rfl
  have hcut : Feeds none [none, some (.ofLines [[0x61]])] ([] ++ ([] ++ [[0x61]])) :=
    .more rfl (.more rfl (.last hwhole))
  refine ⟨((resumption_transparent load_sampleStory reachable_sampleMachine).1 hwhole hcut).2 4, ?_⟩
  have hwaits := (resumption_transparent load_sampleStory reachable_sampleMachine.step.step).2
  exact (hwaits .noSource (by decide +kernel)).1 [] rfl

end

end Machine

end StoryMachine
