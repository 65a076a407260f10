import StoryMachine.Proofs.Encoding

/-!
# Texts cut at a limit

* `plain_ofCode`, `plain_of_letter` : what codes stand for is printable, or a line end;
* `Congruent R limit limit'` : the relation holds between the steps that texts are written with, under one limit
  and under another, and so between the ways a string is written (`Congruent.interpret`, `expand`, `write`),
  however its abbreviations nest;
* `cut limit` : what is left of an outcome under a limit; `Truncates limit whole short` : one step writes plain
  characters behind the text, and another has the same outcome, cut. This is such a relation
  (`congruent_truncates`);
* `decode_limit` : **a limit cuts a text and does nothing else.**
-/

namespace StoryMachine.Text

/-! ## Characters that are written -/

theorem plain_ofCode (code : UInt16) : Plain (ofCode code) := by
  unfold ofCode
  split
  · exact .inl rfl
  · split
    · rename_i hrange
      right
      simp only [UInt16.le_iff_toNat_le, UInt8.le_iff_toNat_le, UInt16.toNat_toUInt8] at hrange ⊢
      change 32 ≤ code.toNat ∧ code.toNat ≤ 126 at hrange
      change 32 ≤ code.toNat % 256 ∧ code.toNat % 256 ≤ 126
      omega
    · decide

theorem plain_of_letter {alphabet : Alphabet} {code letter : UInt8}
    (h : alphabet.letter code = .ok letter) : Plain letter := by
  have hrow : ∀ letter ∈ alphabet.row, Plain letter := by
    cases alphabet <;> decide +kernel
  unfold Alphabet.letter at h
  split at h
  · rename_i found hfound
    cases h
    exact hrow _ (List.mem_of_getElem? hfound)
  · cases h

/-! ## Texts written in two ways -/

/-- The relation holds between the steps that texts are written with, where the first has one limit and the second
another, and it is kept where steps follow one another. -/
structure Congruent (R : Exec (Array UInt8) Unit → Exec (Array UInt8) Unit → Prop) (limit limit' : Int) :
    Prop where
  pure : R (Pure.pure ()) (Pure.pure ())
  throw : ∀ error, R (MonadExcept.throw error) (MonadExcept.throw error)
  emit : ∀ {character}, Plain character → R (emit limit character) (emit limit' character)
  bind : ∀ {step step' next next'}, R step step' → R next next' →
    R (step >>= fun _ => next) (step' >>= fun _ => next')

namespace Congruent

variable {R : Exec (Array UInt8) Unit → Exec (Array UInt8) Unit → Prop} {limit limit' : Int}
  (h : Congruent R limit limit')
include h

theorem ofExcept_bind {α : Type} {result : Except Error α} {next next' : α → Exec (Array UInt8) Unit}
    (hnext : ∀ value, result = .ok value → R (next value) (next' value)) :
    R (Exec.ofExcept result >>= next) (Exec.ofExcept result >>= next') := by
  cases result with
  | error error => exact h.throw error
  | ok value => exact hnext value rfl

/-- Codes are written in either way if abbreviations are. -/
theorem interpret (mode : ShiftMode) {expand expand' : Nat → Exec (Array UInt8) Unit}
    (hexpand : ∀ number, R (expand number) (expand' number)) (shift : Shift) (codes : List UInt8) :
    R (interpret mode limit expand shift codes) (interpret mode limit' expand' shift codes) := by
  -- the cases are those of the first way; which case it is depends on the codes only
  fun_induction Text.interpret mode limit expand shift codes with
  | case1 => exact h.pure
  | case2 shift rest ih =>
    have hspace : Plain space := by decide
    rw [Text.interpret.eq_def mode limit']
    exact h.bind (h.emit hspace) ih
  | case3 shift code hzero hlow =>
    rw [Text.interpret.eq_def mode limit']
    dsimp only
    rw [if_neg hzero, if_pos hlow]
    exact h.pure
  | case4 shift code hzero hlow second rest ih =>
    rw [Text.interpret.eq_def mode limit']
    dsimp only
    rw [if_neg hzero, if_pos hlow]
    exact h.bind (hexpand _) ih
  | case5 shift rest _ _ ih =>
    rw [Text.interpret.eq_def mode limit']
    exact ih
  | case6 shift rest _ _ _ ih =>
    rw [Text.interpret.eq_def mode limit']
    exact ih
  | case7 shift code hzero hlow hfour hfive hten high low rest ih =>
    rw [Text.interpret.eq_def mode limit']
    dsimp only
    rw [if_neg hzero, if_neg hlow, if_neg hfour, if_neg hfive, if_pos hten]
    exact h.bind (h.emit (plain_ofCode _)) ih
  | case8 shift code rest hzero hlow hfour hfive hten hbroken =>
    rw [Text.interpret.eq_def mode limit']
    dsimp only
    rw [if_neg hzero, if_neg hlow, if_neg hfour, if_neg hfive, if_pos hten]
    split
    · exact (hbroken _ _ _ rfl).elim
    · exact h.pure
  | case9 shift code rest hzero hlow hfour hfive hten ih =>
    rw [Text.interpret.eq_def mode limit']
    dsimp only
    rw [if_neg hzero, if_neg hlow, if_neg hfour, if_neg hfive, if_neg hten]
    refine h.ofExcept_bind fun letter hletter => ?_
    exact h.bind (h.emit (plain_of_letter hletter)) ih

theorem expand (image : Image) (rules : Rules) (levels number : Nat) :
    R (expand image rules limit levels number) (expand image rules limit' levels number) := by
  induction levels generalizing number with
  | zero => exact h.throw _
  | succ levels ih =>
    rw [Text.expand, Text.expand]
    refine h.ofExcept_bind fun packed _ => ?_
    refine h.ofExcept_bind fun codes _ => ?_
    exact h.interpret rules.shift ih {} codes

theorem write (image : Image) (rules : Rules) (address : UInt32) :
    R (write image rules limit address) (write image rules limit' address) :=
  h.ofExcept_bind fun codes _ => h.interpret rules.shift (h.expand image rules _) {} codes

end Congruent

/-! ## Outcomes under a limit -/

/-- What is left of an outcome under a limit: all of it if its text is no longer, and otherwise the text up to the
limit, and an error that says so. -/
def cut (limit : Nat) (outcome : Except Error Unit × Array UInt8) : Except Error Unit × Array UInt8 :=
  if outcome.2.size ≤ limit then outcome else (.error .textTooLong, outcome.2.take limit)

section
variable {limit : Nat} {result : Except Error Unit} {text longer : Array UInt8}

theorem cut_of_le (h : text.size ≤ limit) : cut limit (result, text) = (result, text) :=
  if_pos h

theorem cut_of_lt (h : limit < text.size) :
    cut limit (result, text) = (.error .textTooLong, text.take limit) :=
  if_neg (Nat.not_le.mpr h)

/-- What is written behind the limit does not show. -/
theorem cut_of_longer (h : limit ≤ text.size) (hlonger : limit < longer.size) {added : List UInt8}
    (hadded : longer.toList = text.toList ++ added) :
    cut limit (result, longer) = (.error .textTooLong, text.take limit) := by
  have htake : longer.take limit = text.take limit := by
    apply Array.ext'
    simp [hadded, List.take_append_of_le_length h]
  rw [cut_of_lt hlonger, htake]

end

/-- The first step writes plain characters behind the text, and the second has the same outcome, cut. -/
structure Truncates (limit : Nat) (whole short : Exec (Array UInt8) Unit) : Prop where
  writes : ∀ text, ∃ added,
    (whole.perform text).2.toList = text.toList ++ added ∧ ∀ byte ∈ added, Plain byte
  perform_eq : ∀ text, text.size ≤ limit → short.perform text = cut limit (whole.perform text)

namespace Truncates

variable {limit : Nat}

/-- A step that writes nothing is the same under a limit. -/
theorem of_silent {step : Exec (Array UInt8) Unit} (h : ∀ text, (step.perform text).2 = text) :
    Truncates limit step step where
  writes text := ⟨[], by simp [h], by simp⟩
  perform_eq text hsize := (if_pos (by rwa [h])).symm

theorem emit (hlimit : 0 < limit) {character : UInt8} (h : Plain character) :
    Truncates limit (emit 0 character) (emit limit character) := by
  constructor
  · intro text
    exact ⟨[character], by simp [perform_emit], by simpa using h⟩
  · intro text hsize
    rw [perform_emit]
    unfold Text.emit
    rw [Exec.perform_bind_ok (Exec.perform_get text)]
    by_cases hfull : limit ≤ text.size
    · rw [if_pos (by omega), cut_of_longer hfull (by simp; omega) (Array.toList_push ..), Array.take,
        ← Nat.le_antisymm hsize hfull, Array.extract_size]
      rfl
    · rw [if_neg (by omega), cut_of_le (by simp; omega)]
      rfl

theorem bind {whole short next next' : Exec (Array UInt8) Unit} (h : Truncates limit whole short)
    (hnext : Truncates limit next next') :
    Truncates limit (whole >>= fun _ => next) (short >>= fun _ => next') := by
  constructor
  · intro text
    obtain ⟨added, hadded, hplain⟩ := h.writes text
    rcases hwhole : whole.perform text with ⟨error | ⟨⟩, written⟩ <;> rw [hwhole] at hadded
    · rw [Exec.perform_bind_error hwhole]
      exact ⟨added, hadded, hplain⟩
    · obtain ⟨more, hmore, hplain'⟩ := hnext.writes written
      rw [Exec.perform_bind_ok hwhole, hmore, show written.toList = text.toList ++ added from hadded]
      refine ⟨added ++ more, List.append_assoc .., ?_⟩
      simpa [or_imp, forall_and] using ⟨hplain, hplain'⟩
  · intro text hsize
    have hshort := h.perform_eq text hsize
    rcases hwhole : whole.perform text with ⟨error | ⟨⟩, written⟩ <;> rw [hwhole] at hshort
    · rw [Exec.perform_bind_error hwhole]
      by_cases hle : written.size ≤ limit
      · rw [cut_of_le hle] at hshort ⊢
        exact Exec.perform_bind_error hshort
      · rw [cut_of_lt (Nat.not_le.mp hle)] at hshort ⊢
        exact Exec.perform_bind_error hshort
    · rw [Exec.perform_bind_ok hwhole]
      by_cases hle : written.size ≤ limit
      · rw [cut_of_le hle] at hshort
        rw [Exec.perform_bind_ok hshort]
        exact hnext.perform_eq written hle
      · -- the second way has stopped here, and what the first still writes is behind the limit
        obtain ⟨more, hmore, -⟩ := hnext.writes written
        rw [cut_of_lt (Nat.not_le.mp hle)] at hshort
        rw [Exec.perform_bind_error hshort]
        rcases hwritten : next.perform written with ⟨result, longer⟩
        replace hmore : longer.toList = written.toList ++ more := by rwa [hwritten] at hmore
        have hlength := congrArg List.length hmore
        simp only [List.length_append, Array.length_toList] at hlength
        exact (cut_of_longer (by omega) (by omega) hmore).symm

end Truncates

theorem congruent_truncates {limit : Nat} (hlimit : 0 < limit) : Congruent (Truncates limit) 0 limit where
  pure := .of_silent fun _ => rfl
  throw _ := .of_silent fun _ => rfl
  emit := .emit hlimit
  bind := .bind

/-! ## Decoded texts -/

namespace Decoded

/-- The decoded text of an outcome. -/
def ofOutcome : Except Error Unit × Array UInt8 → Decoded
  | (.ok (), text) => ⟨text.toList, none⟩
  | (.error error, text) => ⟨text.toList, some error⟩

theorem text_ofOutcome (outcome : Except Error Unit × Array UInt8) :
    (ofOutcome outcome).text = outcome.2.toList := by
  rcases outcome with ⟨error | ⟨⟩, text⟩
  · rfl
  · rfl

theorem ofOutcome_cut (limit : Nat) (outcome : Except Error Unit × Array UInt8) :
    ofOutcome (cut limit outcome) =
      if (ofOutcome outcome).text.length ≤ limit then ofOutcome outcome
      else ⟨(ofOutcome outcome).text.take limit, some .textTooLong⟩ := by
  rw [text_ofOutcome, Array.length_toList]
  by_cases hle : outcome.2.size ≤ limit
  · rw [cut_of_le hle, if_pos hle]
  · rw [cut_of_lt (Nat.not_le.mp hle), if_neg hle, ofOutcome]
    simp

end Decoded

section
variable (image : Image) (rules : Rules) (address : UInt32)

theorem decode_eq_ofOutcome (limit : Int) :
    decode image rules limit address = .ofOutcome ((write image rules limit address).perform #[]) := rfl

/-- The text under a limit is that under none, cut. -/
theorem decode_eq_cut {limit : Nat} (hlimit : 0 < limit) :
    decode image rules limit address =
      if (decode image rules 0 address).text.length ≤ limit then decode image rules 0 address
      else ⟨(decode image rules 0 address).text.take limit, some .textTooLong⟩ := by
  have htruncates := (congruent_truncates hlimit).write image rules address
  rw [decode_eq_ofOutcome, decode_eq_ofOutcome, htruncates.perform_eq #[] (Nat.zero_le _),
    Decoded.ofOutcome_cut]

theorem plain_of_mem_decode : ∀ byte ∈ (decode image rules 0 address).text, Plain byte := by
  intro byte hbyte
  have htruncates := (congruent_truncates Nat.zero_lt_one).write image rules address
  obtain ⟨added, hadded, hplain⟩ := htruncates.writes #[]
  rw [decode_eq_ofOutcome, Decoded.text_ofOutcome, hadded] at hbyte
  exact hplain byte (by simpa using hbyte)

/-- **A limit cuts a text and does nothing else.** A text that is no longer than the limit is decoded as without
one, and so is the failure that cut it short. A longer one is decoded up to the limit, and then fails because it
is too long, whatever else it would have failed with. All characters are printable, or line ends. -/
theorem decode_limit {limit : Int} (hlimit : 0 < limit) :
    let whole := decode image rules 0 address
    let short := decode image rules limit address
    (whole.text.length ≤ limit → short = whole) ∧
    (limit < whole.text.length → short = ⟨whole.text.take limit.toNat, some .textTooLong⟩) ∧
    (∀ byte ∈ whole.text, Plain byte) ∧ ∀ byte ∈ short.text, Plain byte := by
  obtain ⟨limit, rfl⟩ := Int.eq_ofNat_of_zero_le (Int.le_of_lt hlimit)
  have hplain := plain_of_mem_decode image rules address
  dsimp only
  rw [decode_eq_cut image rules address (Int.natCast_pos.mp hlimit)]
  by_cases hle : (decode image rules 0 address).text.length ≤ limit
  · rw [if_pos hle]
    exact ⟨fun _ => rfl, fun hlt => by omega, hplain, hplain⟩
  · rw [if_neg hle]
    exact ⟨fun h => by omega, fun _ => rfl, hplain, fun byte hbyte => hplain byte (List.mem_of_mem_take hbyte)⟩

end

/-- An image with a string that consists of a letter and the string itself, as its first abbreviation. -/
def cyclicSample : Image where
  header := Header.parse #[]
  bytes := #[0x00, 0x01, 0x98, 0x20]
  pristine := #[]

theorem decode_limit_sample :
    decode cyclicSample .default 4 2 = ⟨ascii "aaaa", some (.nestedTooDeep 0 4)⟩ ∧
      decode cyclicSample .default 3 2 = ⟨ascii "aaa", some .textTooLong⟩ := by
  have hwhole : decode cyclicSample .default 0 2 = ⟨ascii "aaaa", some (.nestedTooDeep 0 4)⟩ := by
    decide +kernel
  have hexact := (decode_limit cyclicSample .default 2 (show (0 : Int) < 4 by decide)).1
  have hlonger := (decode_limit cyclicSample .default 2 (show (0 : Int) < 3 by decide)).2.1
  rw [hwhole] at hexact hlonger
  exact ⟨hexact (by decide), hlonger (by decide)⟩

end StoryMachine.Text
