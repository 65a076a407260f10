import StoryMachine.Error

/-!
# Steps that change a state and may fail

`Exec σ α` is a step on a state `σ` that gives an `α` or an error. A failed step keeps the changes
made before it failed. `Exec.perform` gives the result and the state together, and the `perform_`
lemmas say what each way of building a step does to both.
-/

namespace StoryMachine

/-- A step on a state of type `σ` that gives an `α` or fails. -/
abbrev Exec (σ α : Type) : Type :=
  ExceptT Error (StateM σ) α

namespace Exec

variable {σ τ α : Type}

def perform (step : Exec σ α) (state : σ) : Except Error α × σ :=
  step.run.run state

/-- A result that does not depend on the state. -/
def ofExcept : Except Error α → Exec σ α
  | .ok value => pure value
  | .error error => throw error

def query (read : σ → Except Error α) : Exec σ α := do
  ofExcept (read (← get))

def change (update : σ → Except Error σ) : Exec σ Unit := do
  set (← ofExcept (update (← get)))

/-- A step on a part of the state. -/
def within (part : σ → τ) (replace : σ → τ → σ) (step : Exec τ α) : Exec σ α := do
  let state ← get
  let (result, changed) := step.perform (part state)
  set (replace state changed)
  ofExcept result

/-! ## What steps do -/

variable {β : Type}

@[simp]
theorem perform_pure (value : α) (state : σ) :
    (pure value : Exec σ α).perform state = (.ok value, state) := rfl

@[simp]
theorem perform_throw (error : Error) (state : σ) :
    (throw error : Exec σ α).perform state = (.error error, state) := rfl

@[simp]
theorem perform_get (state : σ) : (get : Exec σ σ).perform state = (.ok state, state) := rfl

@[simp]
theorem perform_set (new state : σ) : (set new : Exec σ PUnit).perform state = (.ok ⟨⟩, new) := rfl

@[simp]
theorem perform_modify (update : σ → σ) (state : σ) :
    (modify update : Exec σ PUnit).perform state = (.ok ⟨⟩, update state) := rfl

/-- A step that follows another starts from the state the first one left, unless that failed. -/
theorem perform_bind (step : Exec σ α) (next : α → Exec σ β) (state : σ) :
    (step >>= next).perform state =
      match step.perform state with
      | (.ok value, state) => (next value).perform state
      | (.error error, state) => (.error error, state) := by
  unfold perform
  simp only [ExceptT.run_bind, StateT.run_bind]
  rcases StateT.run (ExceptT.run step) state with ⟨result, state⟩
  cases result <;> rfl

@[simp]
theorem perform_ofExcept (result : Except Error α) (state : σ) :
    (ofExcept result : Exec σ α).perform state = (result, state) := by
  cases result <;> rfl

@[simp]
theorem perform_query (read : σ → Except Error α) (state : σ) :
    (query read).perform state = (read state, state) := by
  simp [query, perform_bind]

theorem perform_change (update : σ → Except Error σ) (state : σ) :
    (change update).perform state =
      match update state with
      | .ok state => (.ok (), state)
      | .error error => (.error error, state) := by
  cases h : update state <;> simp [change, perform_bind, h]

theorem perform_within (part : σ → τ) (replace : σ → τ → σ) (step : Exec τ α) (state : σ) :
    (step.within part replace).perform state =
      ((step.perform (part state)).1, replace state (step.perform (part state)).2) := by
  simp [within, perform_bind]

end Exec

end StoryMachine
