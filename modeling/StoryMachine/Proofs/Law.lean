import Mathlib.Logic.Relation
import StoryMachine.Exec

/-!
# Laws of steps

* `Error.halting` : the error is of a kind that halts a machine; `Error.operational` : an operation can halt
  the machine with it; `Guarded result` : a result fails with such errors only, never with an access outside
  a table, a missing line or a missing operation;
* `Law σ` : the changes that steps on a `σ` are made of, an invariant that each change keeps, and the
  errors that may be raised under the invariant;
* `Exec.Obeys law step` : from every state the step goes along the law's changes, and raises only its
  errors; closed under `pure`, `>>=` and steps on a part of the state;
* `Exec.Commutes f step` : the step does the same before and after `f` is applied to the state;
* `Exec.Atomic step` : a failure of the step leaves the state as it was.
-/

namespace StoryMachine

open Relation (ReflTransGen)

/-! ## Errors that halt a machine -/

/-- The kinds of failure that an instruction can halt the machine with. -/
def ErrorKind.halting : ErrorKind → Bool
  | outOfBounds | readOnlyViolation | stackUnderflow | stackOverflow | invalidLocal
  | unsupportedOpcode | invalidObject | divisionByZero => true
  | malformedHeader | abbreviationCycle | outputOverflow | noInput => false

/-- The error is of a kind that halts the machine. -/
def Error.halting (error : Error) : Bool :=
  match error.kind? with
  | some kind => kind.halting
  | none => false

theorem Error.halting_ne_outsideTable {error : Error} (h : error.halting) (table : Table) :
    error ≠ .outsideTable table := by
  rintro rfl
  cases h

theorem Error.halting_ne_noLine {error : Error} (h : error.halting) (reason : InputFailure) :
    error ≠ .noLine reason := by
  rintro rfl
  cases h

/-- An operation can halt the machine with the error. That there is no operation is no such error. -/
def Error.operational (error : Error) : Bool :=
  error.halting && error.kind? ≠ some .unsupportedOpcode

theorem Error.halting_of_operational {error : Error} (h : error.operational) : error.halting :=
  (Bool.and_eq_true_iff.mp h).1

theorem Error.kind_ne_of_operational {error : Error} (h : error.operational) :
    error.kind? ≠ some .unsupportedOpcode :=
  of_decide_eq_true (Bool.and_eq_true_iff.mp h).2

variable {σ τ α β : Type}

/-- The result is a value, or an error that an operation can halt the machine with. -/
def Guarded (result : Except Error α) : Prop :=
  ∀ error, result = .error error → error.operational

namespace Guarded

theorem ok (value : α) : Guarded (.ok value) := fun _ h => by cases h

theorem pure (value : α) : Guarded (Pure.pure value : Except Error α) := ok value

theorem error {error : Error} (h : error.operational) : Guarded (.error error : Except Error α) := by
  intro e he
  cases he
  exact h

theorem throw {error : Error} (h : error.operational) :
    Guarded (MonadExcept.throw error : Except Error α) :=
  Guarded.error h

theorem bind {result : Except Error α} {next : α → Except Error β} (h : Guarded result)
    (hnext : ∀ value, result = .ok value → Guarded (next value)) : Guarded (result >>= next) := by
  cases result with
  | error e => exact Guarded.error (h e rfl)
  | ok value => exact hnext value rfl

end Guarded

theorem ok_bind (value : α) (next : α → Except Error β) : (Except.ok value >>= next) = next value := rfl

theorem exists_of_bind_eq_ok {result : Except Error α} {next : α → Except Error β} {value : β}
    (h : (result >>= next) = .ok value) : ∃ a, result = .ok a ∧ next a = .ok value := by
  cases result with
  | error e => cases h
  | ok a => exact ⟨a, rfl, h⟩

/-! ## Laws -/

/-- What steps on a state may do: the changes they are made of, an invariant that every change keeps,
and the errors they may raise from a state with the invariant. An error that may be raised behind a
change may be raised before it. -/
structure Law (σ : Type) where
  Change : σ → σ → Prop
  Good : σ → Prop
  Raises : σ → Error → Prop
  good_of_change : ∀ {s t : σ}, Change s t → Good s → Good t
  raises_of_change : ∀ {s t : σ} {error : Error}, Change s t → Raises t error → Raises s error

namespace Law

variable {law : Law σ} {s t : σ}

theorem good_of_changes (h : ReflTransGen law.Change s t) (hs : law.Good s) : law.Good t := by
  induction h with
  | refl => exact hs
  | tail _ hc ih => exact law.good_of_change hc ih

theorem raises_of_changes {error : Error} (h : ReflTransGen law.Change s t)
    (ht : law.Raises t error) : law.Raises s error := by
  induction h with
  | refl => exact ht
  | tail _ hc ih => exact ih (law.raises_of_change hc ht)

end Law

namespace Exec

theorem perform_bind_ok {step : Exec σ α} {next : α → Exec σ β} {s t : σ} {value : α}
    (h : step.perform s = (.ok value, t)) : (step >>= next).perform s = (next value).perform t := by
  rw [perform_bind, h]

theorem perform_bind_error {step : Exec σ α} {next : α → Exec σ β} {s t : σ} {error : Error}
    (h : step.perform s = (.error error, t)) : (step >>= next).perform s = (.error error, t) := by
  rw [perform_bind, h]

theorem exists_of_perform_bind {step : Exec σ α} {next : α → Exec σ β} {s t : σ} {value : β}
    (h : (step >>= next).perform s = (.ok value, t)) :
    ∃ a middle, step.perform s = (.ok a, middle) ∧ (next a).perform middle = (.ok value, t) := by
  rcases hp : step.perform s with ⟨error | a, middle⟩
  · rw [perform_bind_error hp] at h
    cases h
  · rw [perform_bind_ok hp] at h
    exact ⟨a, middle, rfl, h⟩

theorem exists_of_perform_query_bind {read : σ → Except Error α} {next : α → Exec σ β} {s t : σ}
    {value : β} (h : (query read >>= next).perform s = (.ok value, t)) :
    ∃ a, read s = .ok a ∧ (next a).perform s = (.ok value, t) := by
  obtain ⟨a, middle, hread, hnext⟩ := exists_of_perform_bind h
  rw [perform_query] at hread
  obtain ⟨hvalue, rfl⟩ := Prod.mk.inj hread
  exact ⟨a, hvalue, hnext⟩

theorem eq_ok_of_perform_change {update : σ → Except Error σ} {s t : σ} {value : Unit}
    (h : (change update).perform s = (.ok value, t)) : update s = .ok t := by
  rw [perform_change] at h
  split at h
  · rename_i new hnew
    cases h
    exact hnew
  · cases h

theorem perform_bind_pure (step : Exec σ α) (value : β) (s : σ) :
    ((step >>= fun _ => Pure.pure value).perform s).2 = (step.perform s).2 := by
  rw [perform_bind]
  rcases step.perform s with ⟨error | a, t⟩
  · rfl
  · rfl

/-- From a good state, the step is made of the law's changes and raises only the law's errors. -/
structure Obeys (law : Law σ) (step : Exec σ α) : Prop where
  changes : ∀ s, law.Good s → ReflTransGen law.Change s (step.perform s).2
  raises : ∀ s, law.Good s → ∀ error, (step.perform s).1 = .error error → law.Raises s error

namespace Obeys

variable {law : Law σ}

theorem good {step : Exec σ α} (h : Obeys law step) {s : σ} (hs : law.Good s) :
    law.Good (step.perform s).2 :=
  Law.good_of_changes (h.changes s hs) hs

/-- A step that leaves every state as it is. -/
theorem of_unchanged {step : Exec σ α} (hstate : ∀ s, (step.perform s).2 = s)
    (hresult : ∀ s, law.Good s → ∀ error, (step.perform s).1 = .error error → law.Raises s error) :
    Obeys law step := by
  refine ⟨fun s _ => ?_, hresult⟩
  rw [hstate]

/-- A step whose outcome is known from every good state. -/
theorem of_outcome {step : Exec σ α}
    (h : ∀ s, law.Good s →
      (∃ value, (step.perform s).1 = .ok value ∧ ReflTransGen law.Change s (step.perform s).2) ∨
      ∃ error, (step.perform s).1 = .error error ∧ ReflTransGen law.Change s (step.perform s).2 ∧
        law.Raises s error) : Obeys law step := by
  constructor
  · intro s hs
    rcases h s hs with ⟨_, -, hchanges⟩ | ⟨_, -, hchanges, -⟩
    · exact hchanges
    · exact hchanges
  · intro s hs error he
    rcases h s hs with ⟨_, hok, -⟩ | ⟨_, herror, -, hraises⟩
    · rw [hok] at he
      cases he
    · rw [herror] at he
      cases he
      exact hraises

theorem pure (value : α) : Obeys law (Pure.pure value : Exec σ α) :=
  of_unchanged (fun _ => rfl) fun _ _ _ h => by cases h

theorem ofExcept {result : Except Error α}
    (h : ∀ s, law.Good s → ∀ error, result = .error error → law.Raises s error) :
    Obeys law (Exec.ofExcept result) :=
  of_unchanged (fun s => by rw [perform_ofExcept]) fun s hs error he =>
    h s hs error (by rwa [perform_ofExcept] at he)

theorem throw {error : Error} (h : ∀ s, law.Good s → law.Raises s error) :
    Obeys law (MonadExcept.throw error : Exec σ α) :=
  of_unchanged (fun _ => rfl) fun s hs e he => by
    rw [perform_throw] at he
    cases he
    exact h s hs

theorem query {read : σ → Except Error α}
    (h : ∀ s, law.Good s → ∀ error, read s = .error error → law.Raises s error) :
    Obeys law (Exec.query read) :=
  of_unchanged (fun s => by rw [perform_query]) fun s hs error he =>
    h s hs error (by rwa [perform_query] at he)

theorem bind {step : Exec σ α} {next : α → Exec σ β} (h : Obeys law step)
    (hnext : ∀ value, Obeys law (next value)) : Obeys law (step >>= next) := by
  constructor
  · intro s hs
    have hc := h.changes s hs
    rcases hp : step.perform s with ⟨_ | value, t⟩ <;> rw [hp] at hc
    · rw [perform_bind_error hp]
      exact hc
    · rw [perform_bind_ok hp]
      exact hc.trans ((hnext value).changes t (Law.good_of_changes hc hs))
  · intro s hs error he
    have hc := h.changes s hs
    have hr := h.raises s hs error
    rcases hp : step.perform s with ⟨_ | value, t⟩ <;> rw [hp] at hc hr
    · rw [perform_bind_error hp] at he
      cases he
      exact hr rfl
    · rw [perform_bind_ok hp] at he
      exact Law.raises_of_changes hc ((hnext value).raises t (Law.good_of_changes hc hs) error he)

/-- A result that does not depend on the state, and a step that may rely on where it came from. -/
theorem ofExcept_bind {result : Except Error α} {next : α → Exec σ β}
    (herror : ∀ s, law.Good s → ∀ error, result = .error error → law.Raises s error)
    (hok : ∀ value, result = .ok value → Obeys law (next value)) :
    Obeys law (Exec.ofExcept result >>= next) := by
  cases result with
  | error e =>
    refine ⟨fun s _ => ?_, fun s hs error he => ?_⟩
    · rw [perform_bind_error (perform_ofExcept _ s)]
    · rw [perform_bind_error (perform_ofExcept _ s)] at he
      cases he
      exact herror s hs e rfl
  | ok value =>
    refine ⟨fun s hs => ?_, fun s hs error he => ?_⟩
    · rw [perform_bind_ok (perform_ofExcept _ s)]
      exact (hok value rfl).changes s hs
    · rw [perform_bind_ok (perform_ofExcept _ s)] at he
      exact (hok value rfl).raises s hs error he

/-- A step that may rely on the state it starts from. -/
theorem getting {next : σ → Exec σ α} (h : ∀ s, law.Good s → Obeys law (next s)) :
    Obeys law (get >>= next) := by
  constructor
  · intro s hs
    rw [perform_bind_ok (perform_get s)]
    exact (h s hs).changes s hs
  · intro s hs error he
    rw [perform_bind_ok (perform_get s)] at he
    exact (h s hs).raises s hs error he

theorem change {update : σ → Except Error σ}
    (hok : ∀ s t, update s = .ok t → ReflTransGen law.Change s t)
    (herror : ∀ s, law.Good s → ∀ error, update s = .error error → law.Raises s error) :
    Obeys law (Exec.change update) := by
  constructor
  · intro s _
    rw [perform_change]
    cases h : update s with
    | error e => exact .refl
    | ok t => exact hok s t h
  · intro s hs error he
    rw [perform_change] at he
    cases h : update s with
    | error e =>
      rw [h] at he
      obtain rfl : e = error := by simpa using he
      exact herror s hs e h
    | ok t =>
      rw [h] at he
      cases he

/-- A step on a part of the state, where a change of the part is a change of the whole. -/
theorem within {inner : Law τ} {part : σ → τ} {replace : σ → τ → σ} {step : Exec τ α}
    (h : Obeys inner step) (hput : ∀ s t, part (replace s t) = t) (hget : ∀ s, replace s (part s) = s)
    (htwice : ∀ s t u, replace (replace s t) u = replace s u)
    (hchange : ∀ s u, inner.Change (part s) u → law.Change s (replace s u))
    (hgood : ∀ s, law.Good s → inner.Good (part s))
    (hraises : ∀ s error, inner.Raises (part s) error → law.Raises s error) :
    Obeys law (step.within part replace) := by
  have lift : ∀ s u, ReflTransGen inner.Change (part s) u →
      ReflTransGen law.Change s (replace s u) := by
    intro s u hu
    induction hu with
    | refl => rw [hget]
    | @tail t u _ htu ih =>
      refine ih.tail ?_
      rw [← htwice s t u]
      exact hchange _ _ (by rwa [hput])
  constructor
  · intro s hs
    rw [perform_within]
    exact lift s _ (h.changes _ (hgood s hs))
  · intro s hs error he
    rw [perform_within] at he
    exact hraises s error (h.raises _ (hgood s hs) error he)

end Obeys

/-! ## Steps that do not see a change of the state -/

/-- Applying `f` to the state first does nothing to the step but apply `f` to its outcome. -/
def Commutes (f : σ → σ) (step : Exec σ α) : Prop :=
  ∀ s, step.perform (f s) = ((step.perform s).1, f (step.perform s).2)

namespace Commutes

variable {f : σ → σ}

theorem pure (value : α) : Commutes f (Pure.pure value : Exec σ α) := fun _ => rfl

theorem throw (error : Error) : Commutes f (MonadExcept.throw error : Exec σ α) := fun _ => rfl

theorem ofExcept (result : Except Error α) : Commutes f (Exec.ofExcept result) := by
  intro s
  rw [perform_ofExcept, perform_ofExcept]

theorem query {read : σ → Except Error α} (h : ∀ s, read (f s) = read s) :
    Commutes f (Exec.query read) := by
  intro s
  rw [perform_query, perform_query, h]

theorem bind {step : Exec σ α} {next : α → Exec σ β} (h : Commutes f step)
    (hnext : ∀ value, Commutes f (next value)) : Commutes f (step >>= next) := by
  intro s
  rw [perform_bind, perform_bind, h s]
  rcases step.perform s with ⟨result, t⟩
  cases result with
  | error e => rfl
  | ok value => exact hnext value t

theorem getting {next : σ → Exec σ α} (hsame : ∀ s, next (f s) = next s)
    (h : ∀ s, Commutes f (next s)) : Commutes f (get >>= next) := by
  intro s
  rw [perform_bind_ok (perform_get s), perform_bind_ok (perform_get (f s)), hsame]
  exact h s s

theorem within {part : σ → τ} {replace : σ → τ → σ} {step : Exec τ α}
    (hpart : ∀ s, part (f s) = part s) (hreplace : ∀ s t, replace (f s) t = f (replace s t)) :
    Commutes f (step.within part replace) := by
  intro s
  rw [perform_within, perform_within, hpart, hreplace]

end Commutes

/-! ## Steps that fail as a whole -/

/-- A failed step leaves the state as it was. -/
def Atomic (step : Exec σ α) : Prop :=
  ∀ s error, (step.perform s).1 = .error error → (step.perform s).2 = s

namespace Atomic

theorem query (read : σ → Except Error α) : Atomic (Exec.query read) := by
  intro s error _
  rw [perform_query]

theorem change (update : σ → Except Error σ) : Atomic (Exec.change update) := by
  intro s error h
  rw [perform_change] at h ⊢
  cases hupdate : update s with
  | error e => rfl
  | ok t =>
    rw [hupdate] at h
    cases h

theorem within {part : σ → τ} {replace : σ → τ → σ} {step : Exec τ α} (h : Atomic step)
    (hget : ∀ s, replace s (part s) = s) : Atomic (step.within part replace) := by
  intro s error he
  rw [perform_within] at he ⊢
  dsimp only at he ⊢
  rw [h _ error he, hget]

end Atomic

end Exec

end StoryMachine
