import StoryMachine.Proofs.Integrity
import StoryMachine.Proofs.Twin

/-!
# Starting over

A restart, asked for by the user or executed by the story, makes the machine that a new session of the
loaded story would be. Input, sink and generator go on, and the cells of the old stack stay behind above the
top of the empty one, where nothing sees them.

* `Image.SameStory.reset_eq` : resetting the image of a session gives the loaded image again;
* `Machine.fresh` : a new session whose generator goes on from a given state;
* `Machine.StartsOver` : a machine is the twin of a fresh one, and gives the same answers from then on;
* `fresh_start` : **a restart starts the story over, from every machine that a session can reach.**
-/

namespace StoryMachine

theorem Image.SameStory.reset_eq {file : Array UInt8} {image after : Image}
    (hload : Image.load file = .ok image) (h : image.SameStory after) : after.reset = image := by
  have hloaded : after.loaded = image.bytes :=
    (h.loaded_eq (Image.load_wellFormed hload)).trans (Image.loaded_of_load hload)
  rw [Image.reset, hloaded, h.header_eq, h.pristine_eq]

/-- An emptied stack has the words of a new one. -/
theorem Stack.sameWords_clear {stack : Stack} {limit : Int}
    (h : stack.capacity = (Stack.empty limit).capacity) : stack.clear.SameWords (Stack.empty limit) :=
  ⟨values_clear stack, h, rfl⟩

theorem CallStack.clear_eq {calls : CallStack} {limit : Int}
    (h : calls.capacity = (CallStack.empty limit).capacity) : calls.clear = CallStack.empty limit := by
  rw [clear, h]
  rfl

namespace Machine

variable {G S : Type} [Generator G]

/-- A new session of an image, with the generator in a given state. -/
def fresh (image : Image) (settings : Settings) (session : String) (input : Option LineSource)
    (sink : Option S) (generator : G) (unicode : Text.Unicode) : Machine G S :=
  { new image settings session input sink generator unicode with generator }

variable {file : Array UInt8} {image : Image} {settings : Settings}

/-- Restarting a machine with the settings and the story of a session makes a twin of a fresh one. -/
theorem twin_fresh {machine : Machine G S} (hload : Image.load file = .ok image)
    (hconfigured : Configured settings machine) (hsame : image.SameStory machine.image)
    (session : String) :
    Twin true machine.restart
      (fresh image settings session machine.input machine.sink machine.generator machine.unicode) := by
  have hwords : machine.restart.toStore.SameWords
      (fresh image settings session machine.input machine.sink machine.generator machine.unicode).toStore :=
    ⟨hsame.reset_eq hload, Stack.sameWords_clear hconfigured.stack_eq,
      CallStack.clear_eq hconfigured.calls_eq⟩
  have hpc : machine.image.header.initialPC.toUInt32 = image.header.initialPC.toUInt32 := by
    rw [hsame.header_eq]
  have hsettings : machine.settings = settings := hconfigured.settings_eq
  exact ⟨hwords, congrArg Settings.machine hsettings, hpc, rfl, rfl, rfl, rfl, rfl, rfl,
    fun _ => congrArg Settings.text hsettings, fun _ => rfl⟩

variable [Sink S]

/-- One machine is as a fresh one that goes on with the input, the sink and the generator of the other, and
nothing that is asked later can tell it from the fresh one. -/
structure StartsOver (image : Image) (settings : Settings) (machine after : Machine G S) : Prop where
  twin : ∀ session,
    Twin true after (fresh image settings session machine.input machine.sink machine.generator machine.unicode)
  replies_eq : ∀ session requests, (after.serve requests).1.map Reply.anonymous =
    ((fresh image settings session machine.input machine.sink machine.generator machine.unicode).serve
      requests).1.map Reply.anonymous
  twin_behind : ∀ session requests, Twin true (after.serve requests).2
    ((fresh image settings session machine.input machine.sink machine.generator machine.unicode).serve requests).2

theorem StartsOver.of_twin {machine after : Machine G S} (hgood : after.WellFormed)
    (h : ∀ session,
      Twin true after (fresh image settings session machine.input machine.sink machine.generator machine.unicode)) :
    StartsOver image settings machine after := by
  -- Where the output is heard, twins give the same answers whatever faults there are.
  have hserve := fun session requests => twin_serve requests hgood (h session)
    (fun _ _ => nofun) fun _ _ => nofun
  exact ⟨h, fun session requests => (hserve session requests).1,
    fun session requests => (hserve session requests).2⟩

/-- A story that executes `restart` restarts the machine that it fetched the instruction with. -/
theorem step_of_restart {machine : Machine G S} (h : machine.upcoming? = some .restart) :
    ∃ instruction before, machine.fetched? = some (instruction, before) ∧
      before.input = machine.input ∧ before.sink = machine.sink ∧
      before.generator = machine.generator ∧ before.unicode = machine.unicode ∧
      machine.step = (none, before.restart) := by
  obtain ⟨instruction, before, hfetched, hfind⟩ := fetched_of_upcoming h
  have hstep : machine.step = (none, before.restart) := by
    rw [step_of_fetched hfetched, execute_eq_finish hfind]
    rfl
  refine ⟨instruction, before, hfetched, ?_⟩
  obtain ⟨-, -, ⟨-, rfl⟩ | ⟨-, -, -, rfl⟩⟩ := of_fetched hfetched
  · exact ⟨rfl, rfl, rfl, rfl, hstep⟩
  · exact ⟨rfl, rfl, rfl, rfl, hstep⟩

/-- **A restart starts the story over.** Take any machine that a session reaches, running, done, halted or
waiting for a line. Restarted by the user, or by a step that executes `restart` and does not fail, it is
as a new session of the loaded story. -/
theorem fresh_start (hload : Image.load file = .ok image) (settings : Settings) (session : String)
    (input : Option LineSource) (sink : Option S) (generator : G) (unicode : Text.Unicode)
    (requests : List Request) {machine : Machine G S}
    (hmachine : ((new image settings session input sink generator unicode).serve requests).2 = machine) :
    StartsOver image settings machine machine.restart ∧
    (machine.upcoming? = some .restart →
      machine.step.1 = none ∧ StartsOver image settings machine machine.step.2) := by
  have himage := Image.load_wellFormed hload
  have hnew : Reachable image (new image settings session input sink generator unicode) :=
    .new settings session input sink generator unicode
  have hgood := (wellFormed_new himage settings session input sink generator unicode).serve requests
  have hsame := (hnew.serve requests).sameStory himage
  have hconfigured := configured_serve himage settings session input sink generator unicode requests
  rw [hmachine] at hgood hsame hconfigured
  refine ⟨.of_twin (hgood.move .restart) (twin_fresh hload hconfigured hsame), ?_⟩
  intro hupcoming
  obtain ⟨instruction, before, hfetched, hinput, hsink, hgenerator, hunicode, hstep⟩ :=
    step_of_restart hupcoming
  have hmoves := (hgood.fetched hfetched).2
  have hbefore := hgood.moves hmoves
  have hconfigured' := hgood.keeps (fun _ _ => Configured.move) hmoves hconfigured
  have hsame' := hgood.keeps (P := fun after => image.SameStory after.image)
    (fun _ _ hwell hmove hkept => hkept.trans (hmove.sameStory hwell)) hmoves hsame
  rw [hstep]
  refine ⟨rfl, .of_twin (hbefore.move .restart) ?_⟩
  rw [← hinput, ← hsink, ← hgenerator, ← hunicode]
  exact twin_fresh hload hconfigured' hsame'

/-- The looping story has changed a variable and the stack when it starts over. -/
theorem fresh_start_sample :
    ((loopingMachine {}).serve [.step, .step, .run 2 0]).2.stack.values = #[5] ∧
    ((loopingMachine {}).serve [.step, .step, .run 2 0]).2.image ≠ loopingImage ∧
    ((loopingMachine {}).serve [.step, .step, .run 2 0]).2.step.1 = none ∧
    StartsOver loopingImage {} ((loopingMachine {}).serve [.step, .step, .run 2 0]).2
      ((loopingMachine {}).serve [.step, .step, .run 2 0]).2.step.2 := by
  have h := fresh_start load_loopingStory {} "" none (some ({} : Transcript)) (Dice.ofClock 0) .fifteen
    [.step, .step, .run 2 0] rfl
  exact ⟨by decide +kernel, by decide +kernel, h.2 (by decide +kernel)⟩

end Machine

end StoryMachine
