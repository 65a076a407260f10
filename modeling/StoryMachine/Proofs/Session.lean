import StoryMachine.Proofs.Reachable

/-!
# Sessions

* `Request`, `Reply` : what a user asks of a machine, one thing at a time, and what comes back;
* `Machine.answer`, `Machine.serve` : one request, and a list of them; `serve_keeps` : what steps, restarts and
  changes of the input keep, a session keeps;
* `moves_serve` : **whatever is asked, the machine makes moves only.** So what moves keep holds at the end
  of every session, and every session of a new machine reaches a reachable one;
* `Machine.Configured settings` : the machine has these settings and the limits that they stand for. Every
  session keeps them (`configured_serve`).
-/

namespace StoryMachine

open Relation (ReflTransGen)

/-- What can be asked of a machine. -/
inductive Request where
  | step
  | run (fuel : Nat) (budget : Int)
  | restart
  | setInput (input : Option LineSource)

/-- What a request gives back. -/
inductive Reply where
  | stepped (failure : Option Failure)
  | ran (outcome : Machine.Outcome)
  | nothing
  deriving DecidableEq

/-- The failure that a reply reports. -/
def Reply.failure? : Reply → Option Failure
  | stepped failure => failure
  | ran outcome => outcome.failure
  | nothing => none

namespace Machine

variable {G S : Type} [Generator G] [Sink S]

/-- Does what is asked. -/
def answer (machine : Machine G S) : Request → Reply × Machine G S
  | .step => (.stepped machine.step.1, machine.step.2)
  | .run fuel budget => (.ran (machine.run fuel budget).1, (machine.run fuel budget).2)
  | .restart => (.nothing, machine.restart)
  | .setInput input => (.nothing, { machine with input })

/-- Does one thing after the other and collects the replies. -/
def serve (machine : Machine G S) : List Request → List Reply × Machine G S
  | [] => ([], machine)
  | request :: rest =>
    let (reply, after) := machine.answer request
    let (replies, last) := after.serve rest
    (reply :: replies, last)

theorem serve_append (machine : Machine G S) (requests more : List Request) :
    machine.serve (requests ++ more) =
      ((machine.serve requests).1 ++ ((machine.serve requests).2.serve more).1,
        ((machine.serve requests).2.serve more).2) := by
  induction requests generalizing machine with
  | nil => rfl
  | cons request rest ih =>
    rw [List.cons_append, serve, serve]
    dsimp only
    rw [ih]
    rfl

/-- What steps, restarts and changes of the input keep, every session keeps. -/
theorem serve_keeps {P : Machine G S → Prop} (hstep : ∀ machine, P machine → P machine.step.2)
    (hrestart : ∀ machine, P machine → P machine.restart)
    (hinput : ∀ (machine : Machine G S) (input : Option LineSource), P machine → P { machine with input })
    (requests : List Request) {machine : Machine G S} (h : P machine) : P (machine.serve requests).2 := by
  induction requests generalizing machine with
  | nil => exact h
  | cons request rest ih =>
    refine ih ?_
    cases request with
    | step => exact hstep machine h
    | run fuel budget => exact drive_keeps hstep _ h
    | restart => exact hrestart machine h
    | setInput input => exact hinput machine input h

/-! ## Sessions are made of moves -/

theorem moves_drive (budget : Nat) {machine : Machine G S} (h : machine.WellFormed) :
    ReflTransGen Move machine (machine.drive budget).2 := by
  have hstart : machine.WellFormed ∧ ReflTransGen Move machine machine := ⟨h, .refl⟩
  refine (drive_keeps (P := fun after => after.WellFormed ∧ ReflTransGen Move machine after) ?_
    budget hstart).2
  rintro after ⟨hgood, hmoves⟩
  exact ⟨hgood.step, hmoves.trans (step_moves hgood)⟩

theorem moves_answer (request : Request) {machine : Machine G S} (h : machine.WellFormed) :
    ReflTransGen Move machine (machine.answer request).2 := by
  cases request with
  | step => exact step_moves h
  | run fuel budget => exact moves_drive _ h
  | restart => exact .single .restart
  | setInput input => exact .single (.change .input)

/-- **Serving requests is made of moves.** -/
theorem moves_serve (requests : List Request) {machine : Machine G S} (h : machine.WellFormed) :
    ReflTransGen Move machine (machine.serve requests).2 := by
  induction requests generalizing machine with
  | nil => exact .refl
  | cons request rest ih =>
    have hfirst := moves_answer request h
    exact hfirst.trans (ih (h.moves hfirst))

theorem WellFormed.answer {machine : Machine G S} (h : machine.WellFormed) (request : Request) :
    (machine.answer request).2.WellFormed :=
  h.moves (moves_answer request h)

theorem WellFormed.serve {machine : Machine G S} (h : machine.WellFormed) (requests : List Request) :
    (machine.serve requests).2.WellFormed :=
  h.moves (moves_serve requests h)

theorem Reachable.serve {image : Image} {machine : Machine G S} (h : Reachable image machine)
    (requests : List Request) : Reachable image (machine.serve requests).2 :=
  serve_keeps (fun _ => .step) (fun _ => .restart) (fun _ => .setInput) requests h

end Machine

/-! ## What was configured stays -/

theorem Store.Change.capacity_eq {store after : Store} (h : Store.Change store after) :
    after.stack.capacity = store.stack.capacity ∧ after.calls.capacity = store.calls.capacity := by
  cases h with
  | push h => exact ⟨(Stack.of_push h).2.2.1, rfl⟩
  | pop h => exact ⟨(Stack.of_pop h).2.2.2.1, rfl⟩
  | replaceTop h =>
    obtain ⟨-, rfl⟩ := Stack.of_replaceTop h
    exact ⟨rfl, rfl⟩
  | setLocal _ _ => exact ⟨rfl, rfl⟩
  | write _ => exact ⟨rfl, rfl⟩

namespace Machine

variable {G S : Type}

/-- The machine has the settings, and the limits that they stand for. -/
structure Configured (settings : Settings) (machine : Machine G S) : Prop where
  settings_eq : machine.settings = settings
  stack_eq : machine.stack.capacity = (Stack.empty settings.machine.maxStack).capacity
  calls_eq : machine.calls.capacity = (CallStack.empty settings.machine.maxCallDepth).capacity

variable [Sink S]

theorem Move.capacity_eq {machine after : Machine G S} (h : Move machine after)
    (hgood : machine.WellFormed) :
    after.stack.capacity = machine.stack.capacity ∧ after.calls.capacity = machine.calls.capacity := by
  cases h with
  | change hchange =>
    rcases hchange.store_cases with heq | hstore
    · rw [heq]
      exact ⟨rfl, rfl⟩
    · exact hstore.capacity_eq
  | enter henters =>
    obtain ⟨hpush, -⟩ := henters
    obtain ⟨-, rfl⟩ := CallStack.of_push hpush
    exact ⟨rfl, rfl⟩
  | leave _ hleave => exact ⟨(Stack.of_leave hleave hgood.store.floor_le).2.2.1, rfl⟩
  | _ => exact ⟨rfl, rfl⟩

theorem Move.settings_eq {machine after : Machine G S} (h : Move machine after) :
    after.settings = machine.settings := by
  cases h with
  | change hchange => cases hchange <;> rfl
  | enter henters =>
    cases henters
    rfl
  | _ => rfl

theorem Configured.move {settings : Settings} {machine after : Machine G S} (hgood : machine.WellFormed)
    (hmove : Move machine after) (h : Configured settings machine) : Configured settings after := by
  obtain ⟨hstack, hcalls⟩ := hmove.capacity_eq hgood
  refine ⟨?_, ?_, ?_⟩
  · rw [hmove.settings_eq, h.settings_eq]
  · rw [hstack, h.stack_eq]
  · rw [hcalls, h.calls_eq]

/-- **A machine keeps its settings and limits through every session.** -/
theorem configured_serve [Generator G] {image : Image} (himage : image.WellFormed)
    (settings : Settings) (session : String) (input : Option LineSource) (sink : Option S)
    (generator : G) (unicode : Text.Unicode) (requests : List Request) :
    Configured settings ((new image settings session input sink generator unicode).serve requests).2 := by
  have hgood := wellFormed_new himage settings session input sink generator unicode
  have hnew : Configured settings (new image settings session input sink generator unicode) := ⟨rfl, rfl, rfl⟩
  exact hgood.keeps (fun _ _ => Configured.move) (moves_serve requests hgood) hnew

end Machine

end StoryMachine
