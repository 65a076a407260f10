import StoryMachine.Proofs.Placement
import StoryMachine.Proofs.Reachable

/-!
# Branches

* `Branch.Data bytes branch` : how a branch is written down, in one byte or two; `shortData`, `longData` : the bytes
  for an offset from 0 to 63, and for one from -8192 to 8191 in two's complement;
* `longOffset_eq` : filling the high bits of a word is reading a signed number of fourteen bits;
* `Branch.follow` : what a branch does from the address behind its data;
* `branch_follows` : **the machine reads every branch as it is written down and follows it**, so the two ways of writing
  an offset cannot be told apart, and a branch of two bytes reaches every address in its range.
-/

namespace StoryMachine.Machine

variable {G S : Type}

/-! ## The format -/

/-- How a branch is written down. It is taken on a condition that holds if bit 7 of the first byte is set. With bit 6
set, the offset is in the low six bits; with bit 6 clear, it is a signed number of fourteen bits, the low eight of them
in a second byte. -/
inductive Branch.Data : List UInt8 → Branch → Prop
  | short {first : UInt8} (hshort : first.toNat / 64 % 2 = 1) :
      Data [first] { onTrue := 128 ≤ first.toNat, offset := (first.toNat % 64 : Nat) }
  | long {first second : UInt8} (hlong : first.toNat / 64 % 2 = 0) :
      Data [first, second]
        { onTrue := 128 ≤ first.toNat, offset := Int.bmod (first.toNat % 64 * 256 + second.toNat : Nat) 0x4000 }

/-- A branch in one byte. -/
def Branch.shortData (onTrue : Bool) (offset : Nat) : List UInt8 :=
  [.ofNat (128 * onTrue.toNat + 64 + offset)]

/-- A branch in two bytes. -/
def Branch.longData (onTrue : Bool) (offset : Int) : List UInt8 :=
  let field := (offset % 0x4000).toNat
  [.ofNat (128 * onTrue.toNat + field / 256), .ofNat (field % 256)]

theorem toNat_ofNat_byte {number : Nat} (h : number < 256) : (UInt8.ofNat number).toNat = number := by
  rw [UInt8.toNat_ofNat']
  exact Nat.mod_eq_of_lt h

/-- The highest bit of a byte says whether a branch is taken on a condition that holds. -/
theorem decide_highBit {number : Nat} {onTrue : Bool} (h : number / 128 = onTrue.toNat) :
    decide (128 ≤ number) = onTrue := by
  cases onTrue with
  | false => exact decide_eq_false (by simp at h; omega)
  | true => exact decide_eq_true (by simp at h; omega)

theorem data_shortData (onTrue : Bool) {offset : Nat} (h : offset < 64) :
    Branch.Data (Branch.shortData onTrue offset) ⟨onTrue, offset⟩ := by
  have honTrue : onTrue.toNat ≤ 1 := onTrue.toNat_le
  have hfirst := @toNat_ofNat_byte (128 * onTrue.toNat + 64 + offset) (by omega)
  have hsign : decide (128 ≤ 128 * onTrue.toNat + 64 + offset) = onTrue := decide_highBit (by omega)
  have hoffset : (128 * onTrue.toNat + 64 + offset) % 64 = offset := by omega
  have hdata := @Branch.Data.short (.ofNat (128 * onTrue.toNat + 64 + offset)) (by rw [hfirst]; omega)
  rwa [hfirst, hsign, hoffset] at hdata

theorem data_longData (onTrue : Bool) {offset : Int} (hlow : -8192 ≤ offset) (hhigh : offset < 8192) :
    Branch.Data (Branch.longData onTrue offset) ⟨onTrue, offset⟩ := by
  have honTrue : onTrue.toNat ≤ 1 := onTrue.toNat_le
  unfold Branch.longData
  generalize hfield : (offset % 0x4000).toNat = field
  have hlt : field < 0x4000 := by omega
  have hfirst := @toNat_ofNat_byte (128 * onTrue.toNat + field / 256) (by omega)
  have hsecond := @toNat_ofNat_byte (field % 256) (by omega)
  have hsign : decide (128 ≤ 128 * onTrue.toNat + field / 256) = onTrue := decide_highBit (by omega)
  have hnumber : (128 * onTrue.toNat + field / 256) % 64 * 256 + field % 256 = field := by omega
  have hoffset : Int.bmod field 0x4000 = offset := by
    rw [Int.bmod_def]
    omega
  have hdata := @Branch.Data.long (.ofNat (128 * onTrue.toNat + field / 256)) (.ofNat (field % 256))
    (by rw [hfirst]; omega)
  rwa [hfirst, hsecond, hsign, hnumber, hoffset] at hdata

/-! ## Reading a branch -/

/-- The fields of a branch's first byte, and the high byte of its offset as a word. -/
theorem firstByte_fields (first : UInt8) :
    (first &&& 0x40 = 0 ↔ first.toNat / 64 % 2 = 0) ∧
      decide (first &&& 0x80 ≠ 0) = decide (128 ≤ first.toNat) ∧
      (first &&& 0x3F).toNat = first.toNat % 64 ∧
      (if first &&& 0x20 = 0 then first &&& 0x3F else first &&& 0x3F ||| 0xC0).toNat =
        if first.toNat % 64 < 32 then first.toNat % 64 else first.toNat % 64 + 192 := by
  obtain ⟨⟨first⟩⟩ := first
  revert first
  decide +kernel

theorem toInt_toInt16 (word : UInt16) : word.toInt16.toInt = Int.bmod word.toNat 0x10000 :=
  BitVec.toInt_eq_toNat_bmod _

theorem longOffset_eq (first second : UInt8) :
    longOffset first second = Int.bmod (first.toNat % 64 * 256 + second.toNat : Nat) 0x4000 := by
  have hsecond := second.toNat_lt
  obtain ⟨-, -, -, hhigh⟩ := firstByte_fields first
  unfold longOffset
  rw [toInt_toInt16, toNat_word, hhigh, Int.bmod_def, Int.bmod_def]
  split
  · omega
  · omega

section
variable {machine : Machine G S} (hsize : machine.image.bytes.size < 0x100000000)
include hsize

theorem perform_nextByte_of_holds {byte : UInt8} {rest : List UInt8}
    (h : machine.image.Holds machine.pc (byte :: rest)) :
    nextByte.perform machine = (.ok byte, { machine with pc := machine.pc + 1 }) := by
  rw [perform_nextByte, h.readByte hsize]

/-- A branch is read as it is written down, and the machine stands behind it. -/
theorem perform_nextBranch {data : List UInt8} {branch : Branch} (hdata : Branch.Data data branch)
    (h : machine.image.Holds machine.pc data) :
    ∃ behind : UInt32, behind.toNat = machine.pc.toNat + data.length ∧
      nextBranch.perform machine = (.ok branch, { machine with pc := behind }) := by
  cases hdata with
  | @short first hshort =>
    obtain ⟨hbit, hsign, hfield, -⟩ := firstByte_fields first
    refine ⟨machine.pc + 1, h.toNat_add hsize 1 (Nat.le_refl 1), ?_⟩
    rw [nextBranch, Exec.perform_bind_ok (perform_nextByte_of_holds hsize h), if_neg (by rw [hbit]; omega), hsign,
      hfield]
    rfl
  | @long first second hlong =>
    obtain ⟨hbit, hsign, -, -⟩ := firstByte_fields first
    have hrest : machine.image.Holds (machine.pc + 1) [second] :=
      @Image.Holds.right machine.image machine.pc [first] _ hsize h 1 rfl
    refine ⟨machine.pc + 2, h.toNat_add hsize 2 (Nat.le_refl 2), ?_⟩
    rw [nextBranch, Exec.perform_bind_ok (perform_nextByte_of_holds hsize h), if_pos (hbit.mpr hlong),
      Exec.perform_bind_ok (@perform_nextByte_of_holds _ _ { machine with pc := machine.pc + 1 } hsize second [] hrest),
      hsign, longOffset_eq, UInt32.add_assoc]
    rfl

end

/-! ## Following a branch -/

/-- What a branch does on a condition, from a machine behind its data: nothing, unless the condition is as the branch
asks; a return with 0 or 1 for these offsets; and for any other one a jump, which is refused outside the image. -/
def Branch.follow (branch : Branch) (condition : Bool) (behind : Machine G S) : Except Error Unit × Machine G S :=
  let target : Int := behind.pc.toNat + branch.offset - 2
  if condition ≠ branch.onTrue then (.ok (), behind)
  else if branch.offset = 0 then (returnValue 0).perform behind
  else if branch.offset = 1 then (returnValue 1).perform behind
  else if 0 ≤ target ∧ target < behind.image.bytes.size then
    (.ok (), { behind with pc := .ofNat target.toNat })
  else (.error (.jump target), behind)

theorem perform_branch {machine behind : Machine G S} {branch : Branch}
    (h : nextBranch.perform machine = (.ok branch, behind)) (hsize : behind.image.bytes.size < 0x100000000)
    (condition : Bool) : (Machine.branch condition).perform machine = branch.follow condition behind := by
  rw [Machine.branch, Exec.perform_bind_ok h, Branch.follow]
  by_cases hcondition : condition = branch.onTrue
  · rw [if_pos hcondition, if_neg (not_not.mpr hcondition)]
    split
    · rfl
    · split
      · rfl
      · rw [Exec.perform_bind_ok (Exec.perform_get behind), perform_jumpTo, Image.toNat_length hsize]
        split
        · rw [if_neg (by omega)]
        · rw [if_pos (by omega)]
  · rw [if_neg hcondition, if_pos hcondition]
    rfl

/-- **The machine reads every branch as it is written down and follows it.** In a session of any story, whatever its
memory holds by now, let a branch stand at the program counter, in one byte or in two. What the machine does depends on
the branch and the address behind it alone. An offset from 0 to 63 can be written in one byte or in two, with the same
meaning. A branch of two bytes reaches every address of the image whose distance, in two's complement, fits fourteen
bits and is not one of the two that return. -/
theorem branch_follows {file : Array UInt8} {loaded : Image} (hload : Image.load file = .ok loaded)
    {machine : Machine G S} (hsame : loaded.SameStory machine.image) (condition : Bool) :
    (∀ data branch, Branch.Data data branch → machine.image.Holds machine.pc data →
      ∃ behind : UInt32, behind.toNat = machine.pc.toNat + data.length ∧
        (Machine.branch condition).perform machine = branch.follow condition { machine with pc := behind }) ∧
    (∀ target, (Error.jump target).kind? = some .outOfBounds) ∧
    (∀ (onTrue : Bool) (offset : Nat), offset < 64 →
      Branch.Data (Branch.shortData onTrue offset) ⟨onTrue, offset⟩ ∧
      Branch.Data (Branch.longData onTrue offset) ⟨onTrue, offset⟩) ∧
    (∀ (target : UInt32) (offset : Int), target.toNat < machine.image.bytes.size →
      target.toNat = machine.pc.toNat + 2 + offset - 2 → -8192 ≤ offset → offset < 8192 → offset ≠ 0 →
      offset ≠ 1 → machine.image.Holds machine.pc (Branch.longData condition offset) →
      (Machine.branch condition).perform machine = (.ok (), { machine with pc := target })) := by
  have hsize := (hsame.wellFormed (Image.load_wellFormed hload)).size_lt
  have hfollows : ∀ data branch, Branch.Data data branch → machine.image.Holds machine.pc data →
      ∃ behind : UInt32, behind.toNat = machine.pc.toNat + data.length ∧
        (Machine.branch condition).perform machine = branch.follow condition { machine with pc := behind } := by
    intro data branch hdata hholds
    obtain ⟨behind, hbehind, hnext⟩ := perform_nextBranch hsize hdata hholds
    exact ⟨behind, hbehind, perform_branch hnext hsize condition⟩
  refine ⟨hfollows, fun _ => rfl, ?_, ?_⟩
  · intro onTrue offset hoffset
    exact ⟨data_shortData onTrue hoffset, data_longData onTrue (by omega) (by omega)⟩
  · intro target offset hinside htarget hlow hhigh hzero hone hholds
    obtain ⟨behind, hbehind, hperform⟩ := hfollows _ _ (data_longData condition hlow hhigh) hholds
    have hplace : (behind.toNat : Int) + offset - 2 = target.toNat := by
      rw [htarget, hbehind]
      rfl
    rw [hperform, Branch.follow, if_neg (not_not.mpr rfl), if_neg hzero, if_neg hone]
    dsimp only
    rw [hplace, if_pos (by omega), Int.toNat_natCast, UInt32.ofNat_toNat]

/-- The sample story in a routine that was called in front of 0x4A and whose result is pushed. -/
def calledMachine : Machine Dice Transcript :=
  { sampleMachine with
    pc := 7
    calls := ⟨#[{ returnPC := 0x4A, storeVariable := 0, numLocals := 0, savedFloor := 0 }], 9⟩ }

/-- The bytes of the sample story as branches on a condition that fails: by 64 and by 19, by 0, which returns, and two
that go beyond either end of the image. -/
theorem branch_follows_sample :
    (Machine.branch false).perform { sampleMachine with pc := 6 } = (.ok (), { sampleMachine with pc := 0x46 }) ∧
      (Machine.branch true).perform { sampleMachine with pc := 6 } = (.ok (), { sampleMachine with pc := 8 }) ∧
      (Machine.branch false).perform { sampleMachine with pc := 0x41 } =
        (.ok (), { sampleMachine with pc := 0x53 }) ∧
      (Machine.branch false).perform { sampleMachine with pc := 7 } =
        (.ok (), { sampleMachine with pc := 8, done := true }) ∧
      (∃ after, (Machine.branch false).perform calledMachine = (.ok (), after) ∧ after.pc = 0x4A ∧
        after.stack.values = #[0] ∧ after.calls.depth = 0) ∧
      (Machine.branch false).perform { sampleMachine with pc := 0x42 } =
        (.error (.jump 0xE42), { sampleMachine with pc := 0x44 }) ∧
      (Machine.branch false).perform { sampleMachine with pc := 0x47 } =
        (.error (.jump (-185)), { sampleMachine with pc := 0x49 }) := by
  have h := fun machine => @branch_follows Dice Transcript _ _ load_sampleStory machine
  obtain ⟨-, -, -, hreaches⟩ := h { sampleMachine with pc := 6 } (.refl _) false
  obtain ⟨behind, hpasses, hpass⟩ := (h { sampleMachine with pc := 6 } (.refl _) true).1 _ _
    (data_longData false (by decide) (by decide : (64 : Int) < 8192)) (by decide)
  obtain ⟨taken, htaken, htake⟩ := (h { sampleMachine with pc := 0x41 } (.refl _) false).1 _ _
    (data_shortData false (by decide : 19 < 64)) (by decide +kernel)
  obtain ⟨ended, hended, hend⟩ := (h { sampleMachine with pc := 7 } (.refl _) false).1 _ _
    (data_shortData false (by decide : 0 < 64)) (by decide +kernel)
  obtain ⟨left, hleft, hleave⟩ := (h calledMachine (.refl _) false).1 _ _
    (data_shortData false (by decide : 0 < 64)) (by decide +kernel)
  obtain ⟨above, habove, hhigh⟩ := (h { sampleMachine with pc := 0x42 } (.refl _) false).1 _ _
    (data_longData false (by decide) (by decide : (0xE00 : Int) < 8192)) (by decide +kernel)
  obtain ⟨below, hbelow, hlow⟩ := (h { sampleMachine with pc := 0x47 } (.refl _) false).1 _ _
    (data_longData false (by decide : -8192 ≤ (-256 : Int)) (by decide)) (by decide +kernel)
  obtain rfl : behind = 8 := UInt32.toNat_inj.mp hpasses
  obtain rfl : taken = 0x42 := UInt32.toNat_inj.mp htaken
  obtain rfl : ended = 8 := UInt32.toNat_inj.mp hended
  obtain rfl : left = 8 := UInt32.toNat_inj.mp hleft
  have hreturned : ∃ after, (returnValue 0).perform { calledMachine with pc := 8 } = (.ok (), after) ∧
      after.pc = 0x4A ∧ after.stack.values = #[0] ∧ after.calls.depth = 0 :=
    ⟨_, Prod.ext (by decide +kernel) rfl, by decide +kernel⟩
  rw [Branch.follow, if_neg (not_not.mpr rfl), if_pos Int.natCast_zero] at hleave
  rw [← hleave] at hreturned
  obtain rfl : above = 0x44 := UInt32.toNat_inj.mp habove
  obtain rfl : below = 0x49 := UInt32.toNat_inj.mp hbelow
  have hbeyond : ((0x44 : UInt32).toNat : Int) + 0xE00 - 2 = 0xE42 := by decide
  rw [Branch.follow, if_neg (not_not.mpr rfl), if_neg (by decide), if_neg (by decide), hbeyond,
    if_neg (by decide +kernel)] at hhigh
  exact ⟨hreaches 0x46 64 (by decide) (by decide) (by decide) (by decide) (by decide) (by decide) (by decide),
    hpass, htake, hend, hreturned, hhigh, hlow⟩

end StoryMachine.Machine
