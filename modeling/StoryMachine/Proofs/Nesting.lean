import StoryMachine.Proofs.Truncation

/-!
# Abbreviations nested deeper

* `Appends step` : the step leaves the text that is there and writes behind it;
* `FallsShort outcome whole` : an outcome under a lower limit of nesting: the same as under a higher one, or a part of
  its text, broken off where abbreviations nest too deep;
* `Deepens shallow deep` : from every text, the first step falls short of the second. This relation holds between
  the ways a string is written under a lower limit of nesting and under a higher one (`congruent_deepens`,
  `deepens_expand`, `deepens_write`), whatever the strings refer to, themselves included;
* `decode_deeper` : **a higher limit of nesting changes only texts that a lower one broke off, and continues those.**
-/

namespace StoryMachine.Text

/-! ## Steps that append -/

/-- The step writes behind the text and leaves what is there. -/
def Appends (step : Exec (Array UInt8) Unit) : Prop :=
  ∀ text, text.toList <+: (step.perform text).2.toList

theorem appends_emit (limit : Int) (character : UInt8) : Appends (emit limit character) := by
  intro text
  unfold emit
  rw [Exec.perform_bind_ok (Exec.perform_get text)]
  split
  · exact List.prefix_rfl
  · change text.toList <+: (text.push character).toList
    rw [Array.toList_push]
    exact List.prefix_append ..

/-- What a step has written stays when another step that appends comes behind it. -/
theorem Appends.prefix_bind {next : Exec (Array UInt8) Unit} (hnext : Appends next)
    (step : Exec (Array UInt8) Unit) (text : Array UInt8) :
    (step.perform text).2.toList <+: ((step >>= fun _ => next).perform text).2.toList := by
  rcases hstep : step.perform text with ⟨error | ⟨⟩, written⟩
  · rw [Exec.perform_bind_error hstep]
  · rw [Exec.perform_bind_ok hstep]
    exact hnext written

/-! ## Outcomes under a lower limit -/

/-- The first outcome is the second, or it is a part of its text, broken off by an abbreviation that is nested too
deep. -/
inductive FallsShort : Except Error Unit × Array UInt8 → Except Error Unit × Array UInt8 → Prop
  | refl (outcome : Except Error Unit × Array UInt8) : FallsShort outcome outcome
  | tooDeep {whole : Except Error Unit × Array UInt8} {text : Array UInt8} (number depth : Nat)
      (hbegins : text.toList <+: whole.2.toList) : FallsShort (.error (.nestedTooDeep number depth), text) whole

/-- The second step appends, and the first has the same outcome or falls short of it. -/
structure Deepens (shallow deep : Exec (Array UInt8) Unit) : Prop where
  appends : Appends deep
  fallsShort : ∀ text, FallsShort (shallow.perform text) (deep.perform text)

namespace Deepens

theorem refl {step : Exec (Array UInt8) Unit} (h : Appends step) : Deepens step step :=
  ⟨h, fun text => .refl (step.perform text)⟩

theorem of_tooDeep {deep : Exec (Array UInt8) Unit} (h : Appends deep) (number depth : Nat) :
    Deepens (throw (.nestedTooDeep number depth)) deep :=
  ⟨h, fun text => .tooDeep number depth (h text)⟩

theorem bind {shallow deep next next' : Exec (Array UInt8) Unit} (h : Deepens shallow deep)
    (hnext : Deepens next next') : Deepens (shallow >>= fun _ => next) (deep >>= fun _ => next') := by
  constructor
  · intro text
    exact (h.appends text).trans (hnext.appends.prefix_bind deep text)
  · intro text
    have hfalls := h.fallsShort text
    rcases hshallow : shallow.perform text with ⟨error | ⟨⟩, written⟩ <;> rw [hshallow] at hfalls
    · rw [Exec.perform_bind_error hshallow]
      generalize hdeep : deep.perform text = outcome at hfalls
      cases hfalls with
      | refl =>
        rw [Exec.perform_bind_error hdeep]
        exact .refl _
      | tooDeep number depth hbegins =>
        -- the second step goes on, but only behind what the first has written
        refine .tooDeep number depth (hbegins.trans ?_)
        rw [← hdeep]
        exact hnext.appends.prefix_bind deep text
    · rw [Exec.perform_bind_ok hshallow]
      generalize hdeep : deep.perform text = outcome at hfalls
      cases hfalls
      rw [Exec.perform_bind_ok hdeep]
      exact hnext.fallsShort written

end Deepens

theorem congruent_deepens (limit : Int) : Congruent Deepens limit limit where
  pure := .refl fun _ => List.prefix_rfl
  throw _ := .refl fun _ => List.prefix_rfl
  emit _ := .refl (appends_emit limit _)
  bind := .bind

/-! ## Texts under two limits -/

section
variable (image : Image) (mode : ShiftMode) (limit : Int) {depth depth' : Int}

/-- The induction is on the levels that the first way has left: where there are none, it breaks off, and the second
way writes on. -/
theorem deepens_expand {levels levels' : Nat} (h : levels ≤ levels') (number : Nat) :
    Deepens (expand image ⟨depth, mode⟩ limit levels number) (expand image ⟨depth', mode⟩ limit levels' number) := by
  induction levels generalizing levels' number with
  | zero =>
    have happends := ((congruent_deepens limit).expand image ⟨depth', mode⟩ levels' number).appends
    exact .of_tooDeep happends number _
  | succ levels ih =>
    obtain ⟨rest, rfl⟩ := Nat.exists_eq_add_of_le' h
    rw [expand, ← Nat.add_assoc, expand]
    refine (congruent_deepens limit).ofExcept_bind fun packed _ => ?_
    refine (congruent_deepens limit).ofExcept_bind fun codes _ => ?_
    exact (congruent_deepens limit).interpret mode (ih (Nat.le_add_left levels rest)) {} codes

theorem deepens_write (address : UInt32) (h : depth ≤ depth') :
    Deepens (write image ⟨depth, mode⟩ limit address) (write image ⟨depth', mode⟩ limit address) :=
  (congruent_deepens limit).ofExcept_bind fun codes _ =>
    (congruent_deepens limit).interpret mode (deepens_expand image mode limit (Int.toNat_le_toNat h)) {} codes

/-- **A higher limit of nesting changes only texts that a lower one broke off, and continues those.** Under the lower
limit, a text that is decoded to its end, or ends for any other reason than that abbreviations nest too deep, is the
same under the higher one, with the same failure. A text that breaks off there is the beginning of the text under
the higher limit. -/
theorem decode_deeper (address : UInt32) (h : depth ≤ depth') :
    let shallow := decode image ⟨depth, mode⟩ limit address
    let deep := decode image ⟨depth', mode⟩ limit address
    (shallow.failure.bind Error.kind? ≠ some .abbreviationCycle → deep = shallow) ∧
    (shallow.failure.bind Error.kind? = some .abbreviationCycle → shallow.text <+: deep.text) := by
  have hfalls := (deepens_write image mode limit address h).fallsShort #[]
  dsimp only
  rw [decode_eq_ofOutcome, decode_eq_ofOutcome]
  generalize (write image ⟨depth, mode⟩ limit address).perform #[] = outcome at hfalls ⊢
  cases hfalls with
  | refl => exact ⟨fun _ => rfl, fun _ => List.prefix_rfl⟩
  | tooDeep number depth hbegins =>
    refine ⟨fun hother => absurd rfl hother, fun _ => ?_⟩
    rw [Decoded.text_ofOutcome, Decoded.text_ofOutcome]
    exact hbegins

end

/-- The string that contains itself breaks off at each limit, further back at the higher one, unless it has become
too long before. -/
theorem decode_deeper_sample :
    (decode cyclicSample ⟨1, .single⟩ 0 2).text = ascii "aa" ∧
      ascii "aa" <+: (decode cyclicSample ⟨3, .single⟩ 0 2).text ∧
      decode cyclicSample ⟨3, .single⟩ 2 2 = ⟨ascii "aa", some .textTooLong⟩ := by
  have hdeep : decode cyclicSample ⟨1, .single⟩ 0 2 = ⟨ascii "aa", some (.nestedTooDeep 0 2)⟩ := by
    decide +kernel
  have hlong : decode cyclicSample ⟨2, .single⟩ 2 2 = ⟨ascii "aa", some .textTooLong⟩ := by
    decide +kernel
  have hcontinued := (decode_deeper cyclicSample .single 0 2 (show (1 : Int) ≤ 3 by decide)).2
  have hkept := (decode_deeper cyclicSample .single 2 2 (show (2 : Int) ≤ 3 by decide)).1
  rw [hdeep] at hcontinued
  rw [hlong] at hkept
  exact ⟨congrArg Decoded.text hdeep, hcontinued rfl, hkept (by decide)⟩

end StoryMachine.Text
