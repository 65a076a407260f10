import StoryMachine.Proofs.Access
import StoryMachine.Proofs.Encoding
import StoryMachine.Proofs.Step

/-!
# Strings behind an instruction

A string that is printed from the place of its instruction is scanned twice: its codes are decoded, and the address
behind it is where the machine goes on. Decoding may break off early, but it unpacks the whole string first.

* `Text.Spans image address behind count` : a string of so many words, from an address to the one behind it;
* `Text.scan_cases` : both scans find the same string, or both fail for the same reason, which is not one that a text
  is only cut short for; `Text.exists_endOf_iff`, `Text.spans_of_scans` : what follows for each of them;
* `perform_printInline_of_ok` : a string that was printed is passed over;
* `Unprinted`, `unprinted_of_printInline` : one that is not passed over was not printed, and if the sink has changed,
  it has refused the text;
* `print_scans_agree` : **once a string behind an instruction has been printed, the machine can go on behind it.**
-/

namespace StoryMachine

/-! ## The two scans -/

namespace Text

variable {image : Image} {address behind : UInt32}

/-- The `count` words between two addresses are a string inside the image: the last one has its top bit set, and no
other has. -/
structure Spans (image : Image) (address behind : UInt32) (count : Nat) : Prop where
  behind_eq : behind.toNat = address.toNat + 2 * count
  lt_behind : address < behind
  behind_le : behind ≤ image.length
  word_at : ∀ i < count, ∀ place : UInt32, place.toNat = address.toNat + 2 * i →
    ∃ word, image.readWord place = .ok word ∧ (endsString word ↔ i + 1 = count)

/-- A word with its top bit set is a string. -/
theorem Spans.last {word : UInt16} (hread : image.readWord address = .ok word) (hends : endsString word) :
    Spans image address (address + 2) 1 := by
  obtain ⟨hadd, hle⟩ := Image.behind_readWord hread
  refine ⟨hadd, ?_, ?_, ?_⟩
  · rw [UInt32.lt_iff_toNat_lt]
    omega
  · rw [UInt32.le_iff_toNat_le]
    omega
  · intro i hi place hplace
    obtain rfl : i = 0 := by omega
    obtain rfl : place = address := UInt32.toNat_inj.mp hplace
    exact ⟨word, hread, by simp [hends]⟩

/-- A string with another word in front of it. -/
theorem Spans.next {word : UInt16} {count : Nat} (hread : image.readWord address = .ok word)
    (hgoesOn : ¬ endsString word) (h : Spans image (address + 2) behind count) :
    Spans image address behind (count + 1) := by
  obtain ⟨hadd, -⟩ := Image.behind_readWord hread
  obtain ⟨hbehind, hlt, hle, hwords⟩ := h
  rw [UInt32.lt_iff_toNat_lt] at hlt
  refine ⟨by omega, by rw [UInt32.lt_iff_toNat_lt]; omega, hle, ?_⟩
  intro i hi place hplace
  cases i with
  | zero =>
    obtain rfl : place = address := UInt32.toNat_inj.mp hplace
    exact ⟨word, hread, fun hends => absurd hends hgoesOn, fun hlast => by omega⟩
  | succ i =>
    obtain ⟨found, hfound, hends⟩ := hwords i (by omega) place (by omega)
    exact ⟨found, hfound, hends.trans (by omega)⟩

theorem not_recoverable_of_readWord {error : Error} (h : image.readWord address = .error error) :
    error.recoverable = false := by
  unfold Image.readWord at h
  split at h
  · cases h
    rfl
  · rcases image.cell_cases address with ⟨-, high, hhigh⟩ | hhigh
    · rcases image.cell_cases (address + 1) with ⟨-, low, hlow⟩ | hlow
      · rw [hhigh, hlow] at h
        cases h
      · rw [hhigh, hlow] at h
        cases h
        rfl
    · rw [hhigh] at h
      cases h
      rfl

theorem endOf_of_error {error : Error} (h : image.readWord address = .error error) :
    endOf image address = .error error := by
  rw [endOf]
  split
  · rename_i found hfound
    rw [h] at hfound
    cases hfound
    rfl
  · rename_i word hword
    rw [h] at hword
    cases hword

/-- **The two scans of a string.** Both fail on the same word, or both reach the end of the same string. -/
theorem scan_cases (image : Image) (address : UInt32) :
    (∃ error, codesAt image address = .error error ∧ endOf image address = .error error ∧
      error.recoverable = false) ∨
    ∃ codes behind count, codesAt image address = .ok codes ∧ endOf image address = .ok behind ∧
      codes.length = 3 * count ∧ Spans image address behind count := by
  fun_induction codesAt image address with
  | case1 address error hread =>
    exact .inl ⟨error, rfl, endOf_of_error hread, not_recoverable_of_readWord hread⟩
  | case2 address word hread hends =>
    refine .inr ⟨_, address + 2, 1, rfl, ?_, rfl, .last hread hends⟩
    rw [endOf_eq hread, if_pos hends]
  | case3 address word hread hgoesOn ih =>
    rw [endOf_eq hread, if_neg hgoesOn]
    rcases ih with ⟨error, hcodes, hend, hfatal⟩ | ⟨codes, behind, count, hcodes, hend, hlength, hspans⟩
    · rw [hcodes]
      exact .inl ⟨error, rfl, hend, hfatal⟩
    · rw [hcodes]
      refine .inr ⟨unpackCodes word ++ codes, behind, count + 1, rfl, hend, ?_, hspans.next hread hgoesOn⟩
      rw [List.length_append, hlength]
      change 3 + 3 * count = _
      omega

theorem exists_endOf_iff :
    (∃ behind, endOf image address = .ok behind) ↔ ∃ codes, codesAt image address = .ok codes := by
  rcases scan_cases image address with ⟨error, hcodes, hend, -⟩ | ⟨codes, behind, -, hcodes, hend, -⟩
  · rw [hcodes, hend]
    exact ⟨nofun, nofun⟩
  · exact ⟨fun _ => ⟨codes, hcodes⟩, fun _ => ⟨behind, hend⟩⟩

/-- The codes are those of the words that are passed over, three of each. -/
theorem spans_of_scans {codes : List UInt8} (hend : endOf image address = .ok behind)
    (hcodes : codesAt image address = .ok codes) : Spans image address behind (codes.length / 3) := by
  rcases scan_cases image address with ⟨error, herror, -⟩ | ⟨found, reached, count, hfound, hreached, hlength, hspans⟩
  · rw [hcodes] at herror
    cases herror
  · rw [hcodes] at hfound
    rw [hend] at hreached
    cases hfound
    cases hreached
    rwa [hlength, Nat.mul_div_cancel_left count (by decide)]

/-- A string that cannot be unpacked has no text, whatever the rules. -/
theorem decode_of_codesAt_error (rules : Rules) (limit : Int) {error : Error}
    (h : codesAt image address = .error error) : decode image rules limit address = ⟨[], some error⟩ := by
  unfold decode write
  rw [h, Exec.perform_bind_error (Exec.perform_ofExcept _ _)]

theorem codesAt_of_endOf_error {error : Error} (h : endOf image address = .error error) :
    codesAt image address = .error error := by
  rcases scan_cases image address with ⟨found, hcodes, hend, -⟩ | ⟨_, behind, _, -, hend, -⟩
  · rw [h] at hend
    cases hend
    exact hcodes
  · rw [h] at hend
    cases hend

end Text

/-! ## Printing -/

namespace Machine

variable {G S : Type}

/-- Failing reports the error and does not touch the sink. -/
theorem of_fail {instruction : Instruction} {error : Error} {machine : Machine G S} {failure : Failure}
    (h : (fail instruction error machine).1 = some failure) :
    failure.error = error ∧ (fail instruction error machine).2.sink = machine.sink := by
  unfold fail at h ⊢
  split at h <;> cases h <;> exact ⟨rfl, rfl⟩

variable [Sink S]

/-- An attempt to print that failed: it has left the machine as it was, or the sink has refused a text. -/
inductive Unprinted (machine : Machine G S) : Error → Machine G S → Prop
  | silent {error : Error} : Unprinted machine error machine
  | refused {sink : S} {text : List UInt8} {reason : String} (hsink : machine.sink = some sink)
      (h : (Sink.write text sink).1 = some reason) :
      Unprinted machine (.sinkRefused reason) { machine with sink := some (Sink.write text sink).2 }

theorem unprinted_of_print {text : List UInt8} {machine after : Machine G S} {error : Error}
    (h : (print text).perform machine = (.error error, after)) : Unprinted machine error after := by
  rw [perform_print] at h
  cases hsink : machine.sink with
  | none =>
    rw [hsink] at h
    cases h
  | some sink =>
    rw [hsink] at h
    dsimp only at h
    by_cases hempty : text.isEmpty
    · rw [if_pos hempty] at h
      cases h
    · rw [if_neg hempty] at h
      cases hrefusal : (Sink.write text sink).1 with
      | none =>
        rw [hrefusal] at h
        cases h
      | some reason =>
        rw [hrefusal] at h
        cases h
        exact .refused hsink hrefusal

theorem unprinted_of_printDecoded {decoded : Text.Decoded} {machine after : Machine G S} {error : Error}
    (h : (printDecoded decoded).perform machine = (.error error, after)) : Unprinted machine error after := by
  unfold printDecoded at h
  cases hfailure : decoded.failure with
  | none =>
    rw [hfailure] at h
    exact unprinted_of_print h
  | some cause =>
    rw [hfailure] at h
    dsimp only at h
    split at h
    · exact unprinted_of_print h
    · rw [Exec.perform_throw] at h
      cases h
      exact .silent

theorem perform_printString (address : UInt32) (machine : Machine G S) :
    (printString address).perform machine =
      (printDecoded (Text.decode machine.image machine.settings.text.rules machine.settings.text.maxStringLength
        address)).perform machine := by
  unfold printString
  rw [Exec.perform_bind_ok (Exec.perform_get machine)]

/-- A string that was printed, if only in part, has been unpacked. -/
theorem exists_endOf_of_printString {address : UInt32} {machine after : Machine G S}
    (h : (printString address).perform machine = (.ok (), after)) :
    ∃ behind, Text.endOf machine.image address = .ok behind := by
  rcases Text.scan_cases machine.image address with ⟨error, hcodes, -, hfatal⟩ | ⟨_, behind, _, -, hend, -⟩
  · -- the decoded text has a failure that is not passed over
    rw [perform_printString, Text.decode_of_codesAt_error _ _ hcodes] at h
    simp [printDecoded, hfatal] at h
  · exact ⟨behind, hend⟩

/-- A string behind an instruction that was printed is passed over. -/
theorem perform_printInline_of_ok {machine after : Machine G S}
    (h : (printString machine.pc).perform machine = (.ok (), after)) :
    ∃ behind, Text.endOf after.image after.pc = .ok behind ∧
      printInline.perform machine = (.ok (), { after with pc := behind }) := by
  obtain ⟨behind, hend⟩ := exists_endOf_of_printString h
  obtain ⟨sink, hafter⟩ := printsOnly_printString machine.pc machine
  rw [h] at hafter
  subst hafter
  refine ⟨behind, hend, ?_⟩
  unfold printInline
  rw [Exec.perform_bind_ok (Exec.perform_get machine), Exec.perform_bind_ok h,
    Exec.perform_bind_ok (by rw [Exec.perform_query]; exact congrArg (·, _) hend)]
  rfl

/-- A string behind an instruction that is not passed over was not printed. -/
theorem unprinted_of_printInline {machine after : Machine G S} {error : Error}
    (h : printInline.perform machine = (.error error, after)) : Unprinted machine error after := by
  rcases hprint : (printString machine.pc).perform machine with ⟨failure | value, middle⟩
  · unfold printInline at h
    rw [Exec.perform_bind_ok (Exec.perform_get machine), Exec.perform_bind_error hprint] at h
    cases h
    rw [perform_printString] at hprint
    exact unprinted_of_printDecoded hprint
  · obtain ⟨behind, -, hperform⟩ := perform_printInline_of_ok hprint
    rw [hperform] at h
    cases h

section
variable [Generator G] {instruction : Instruction} {machine after : Machine G S}
  (hfind : Operation.find instruction.count instruction.number = .ok (some .print))
include hfind

theorem execute_print : execute instruction machine = finish instruction (printInline.perform machine) :=
  execute_eq_finish hfind

theorem execute_print_of_ok (h : (printString machine.pc).perform machine = (.ok (), after)) :
    ∃ behind, Text.endOf after.image after.pc = .ok behind ∧
      execute instruction machine = (none, { after with pc := behind }) := by
  obtain ⟨behind, hend, hperform⟩ := perform_printInline_of_ok h
  refine ⟨behind, hend, ?_⟩
  rw [execute_print hfind, hperform]
  rfl

/-- If the instruction fails, it has printed nothing, or the sink has refused what it was to print. -/
theorem sink_of_execute_print {failure : Failure} (h : (execute instruction machine).1 = some failure) :
    (execute instruction machine).2.sink = machine.sink ∨
      ∃ sink text reason, machine.sink = some sink ∧ (Sink.write text sink).1 = some reason ∧
        failure.error = .sinkRefused reason ∧
        (execute instruction machine).2.sink = some (Sink.write text sink).2 := by
  rw [execute_print hfind] at h ⊢
  rcases hperform : printInline.perform machine with ⟨error | value, after⟩
  · rw [hperform, finish] at h
    obtain ⟨herror, hsame⟩ := of_fail h
    rw [finish, hsame, herror]
    cases unprinted_of_printInline hperform with
    | silent => exact .inl rfl
    | refused hsink hrefusal => exact .inr ⟨_, _, _, hsink, hrefusal, rfl, rfl⟩
  · rw [hperform] at h
    cases h

end

/-- **The two scans of a string behind an instruction agree.** For any bytes of an image and any address, the address
behind the string there can be found if and only if its codes can be unpacked: two bytes for every three codes, inside
the image, the last word with its top bit set and no other. If not, the text cannot be decoded either, whatever the
rules. So an instruction that prints such a string goes on behind it once the text has been printed, also if that was
cut short. When it fails it has not touched the sink, unless that is what failed: it has refused the text. -/
theorem print_scans_agree [Generator G] :
    (∀ (image : Image) (address : UInt32),
      ((∃ behind, Text.endOf image address = .ok behind) ↔ ∃ codes, Text.codesAt image address = .ok codes) ∧
      (∀ behind codes, Text.endOf image address = .ok behind → Text.codesAt image address = .ok codes →
        Text.Spans image address behind (codes.length / 3)) ∧
      ∀ error, Text.endOf image address = .error error →
        ∀ rules limit, Text.decode image rules limit address = ⟨[], some error⟩) ∧
    ∀ (machine : Machine G S) (instruction : Instruction),
      Operation.find instruction.count instruction.number = .ok (some .print) →
      (∀ after, (printString machine.pc).perform machine = (.ok (), after) →
        ∃ behind, Text.endOf after.image after.pc = .ok behind ∧
          execute instruction machine = (none, { after with pc := behind })) ∧
      ∀ failure, (execute instruction machine).1 = some failure →
        (execute instruction machine).2.sink = machine.sink ∨
          ∃ sink text reason, machine.sink = some sink ∧ (Sink.write text sink).1 = some reason ∧
            failure.error = .sinkRefused reason ∧
            (execute instruction machine).2.sink = some (Sink.write text sink).2 := by
  constructor
  · intro image address
    refine ⟨Text.exists_endOf_iff, fun _ _ => Text.spans_of_scans, ?_⟩
    intro error hend rules limit
    exact Text.decode_of_codesAt_error rules limit (Text.codesAt_of_endOf_error hend)
  · intro machine instruction hfind
    exact ⟨fun _ => execute_print_of_ok hfind, fun _ => sink_of_execute_print hfind⟩

/-- A story that prints a string of two words, the first of which holds an abbreviation that contains itself. Behind it
there is another one to print, whose words never end. -/
def nestedStory : Array UInt8 :=
  #[0x03, 0x00, 0x00, 0x00, 0x00, 0x00, 0x00, 0x44] ++ Array.replicate 7 0x00 ++ #[0x40] ++ Array.replicate 9 0x00 ++
    #[0x40] ++ Array.replicate 38 0x00 ++
    #[0x00, 0x21, 0x98, 0x20, 0xB2, 0x18, 0x20, 0x98, 0xC6, 0xB2, 0x00, 0x00, 0x00]

def nestedImage : Image :=
  .whole nestedStory

/-- A session of the story in which the first instruction has been decoded. -/
def nestedMachine : Machine Dice Transcript :=
  { Machine.new nestedImage {} "" none (some {}) (Dice.ofClock 0) .fifteen with pc := 0x45 }

/-- The instruction that prints the string behind it. -/
def printInstruction : Instruction where
  address := 0x44
  opcode := 0xB2
  number := 2

theorem print_scans_agree_sample :
    Text.Spans nestedImage 0x45 0x49 2 ∧
    Text.decode nestedImage .default 0 0x4A = ⟨[], some (.readWord 0x4C)⟩ ∧
    ∃ after, (printString 0x45).perform nestedMachine = (.ok (), after) ∧
      after.sink.map Sink.written = some [0x61, 0x61, 0x61, 0x61] ∧
      execute printInstruction nestedMachine = (none, { after with pc := 0x49 }) := by
  obtain ⟨hscans, hprints⟩ := @print_scans_agree Dice Transcript _ _
  obtain ⟨-, hspans, -⟩ := hscans nestedImage 0x45
  obtain ⟨-, -, hfails⟩ := hscans nestedImage 0x4A
  have hend : Text.endOf nestedImage 0x45 = .ok 0x49 := by decide +kernel
  have hcodes : Text.codesAt nestedImage 0x45 = .ok [6, 1, 0, 6, 6, 6] := by decide +kernel
  have hendless : Text.endOf nestedImage 0x4A = .error (.readWord 0x4C) := by decide +kernel
  have hwritten : ((printString 0x45).perform nestedMachine).2.sink.map Sink.written =
      some [0x61, 0x61, 0x61, 0x61] := by decide +kernel
  have hok : ((printString 0x45).perform nestedMachine).1 = .ok () := by decide +kernel
  have hpc : (execute printInstruction nestedMachine).2.pc = 0x49 := by decide +kernel
  obtain ⟨hgoesOn, -⟩ := hprints nestedMachine printInstruction (by decide)
  obtain ⟨behind, -, hexecute⟩ := hgoesOn _ (Prod.ext hok rfl)
  rw [hexecute] at hpc
  obtain rfl : behind = 0x49 := hpc
  exact ⟨hspans _ _ hend hcodes, hfails _ hendless _ _, _, Prod.ext hok rfl, hwritten, hexecute⟩

end Machine

end StoryMachine
