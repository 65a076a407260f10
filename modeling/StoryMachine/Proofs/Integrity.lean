import StoryMachine.Proofs.Reachable

/-!
# Memory integrity

A story may write to its dynamic memory, and to nothing else of its image. Even a story that overwrites
its own header cannot move the boundary, as the header was read when the story was loaded.

* `Move.sameStory` : a move keeps the header, the length, the pristine copy and static memory;
* `memory_integrity` : **they are those of load time in every reachable machine, with the checksum, so that
  `verify` branches the same way at every point.**
-/

namespace StoryMachine

open Relation (ReflTransGen)

theorem Store.Change.sameStory {store after : Store} (h : Store.Change store after) :
    store.image.SameStory after.image := by
  cases h with
  | write hwrite => exact .of_write hwrite
  | _ => exact .refl _

namespace Machine

variable {G S : Type} [Sink S]

theorem Move.sameStory {machine after : Machine G S} (h : Move machine after)
    (hgood : machine.WellFormed) : machine.image.SameStory after.image := by
  cases h with
  | change hchange =>
    rcases hchange.store_cases with heq | hstore
    · rw [heq]
      exact .refl _
    · exact hstore.sameStory
  | enter henters =>
    cases henters
    exact .refl _
  | restart => exact .reset hgood.store.image
  | _ => exact .refl _

variable [Generator G] {image : Image}

theorem Reachable.sameStory (himage : image.WellFormed) {machine : Machine G S}
    (h : Reachable image machine) : image.SameStory machine.image := by
  refine h.keeps (P := fun machine => image.SameStory machine.image) himage ?_ ?_
  · exact fun _ _ _ _ _ _ => .refl image
  · exact fun _ _ hgood hmove hsame => hsame.trans (hmove.sameStory hgood)

theorem operate_verify (instruction : Instruction) (machine : Machine G S) :
    (operate .verify instruction).perform machine =
      (branch (machine.image.checksum = machine.image.header.checksum)).perform machine := by
  have hquery := Exec.perform_query (fun machine : Machine G S =>
    .ok (decide (machine.image.checksum = machine.image.header.checksum))) machine
  exact Exec.perform_bind_ok hquery

/-- **Nothing but dynamic memory ever differs from the loaded story.** -/
theorem memory_integrity {file : Array UInt8} (hload : Image.load file = .ok image)
    {machine : Machine G S} (h : Reachable image machine) :
    machine.image.header = image.header ∧ machine.image.bytes.size = image.bytes.size ∧
      (∀ i, image.header.staticBase.toNat ≤ i → machine.image.bytes[i]? = image.bytes[i]?) ∧
      machine.image.pristine = image.bytes.extract 0 image.header.staticBase.toNat ∧
      machine.image.checksum.toNat =
        Image.byteSum (image.bytes.toList.drop headerSize) % 0x10000 ∧
      ∀ instruction, (operate .verify instruction).perform machine =
        (branch (Image.byteSum (image.bytes.toList.drop headerSize) % 0x10000 =
          image.header.checksum.toNat)).perform machine := by
  have himage := Image.load_wellFormed hload
  have hsame := h.sameStory himage
  have hchecksum : machine.image.checksum.toNat =
      Image.byteSum (image.bytes.toList.drop headerSize) % 0x10000 := by
    rw [hsame.checksum_eq himage, Image.toNat_checksum, Image.loaded_of_load hload]
  refine ⟨hsame.header_eq, hsame.size_eq, hsame.static_eq, ?_, hchecksum, fun instruction => ?_⟩
  · rw [hsame.pristine_eq]
    exact (Image.of_load hload).2.2.2.2
  · rw [operate_verify, ← hchecksum, hsame.header_eq]
    simp only [UInt16.toNat_inj]

/-- The static base of a running story that has overwritten it. -/
theorem memory_integrity_sample :
    sampleMachine.step.2.image.bytes[0xE]? = some 0xFF ∧
      sampleMachine.step.2.image.header.staticBase = 0x50 ∧
      sampleMachine.step.2.image.checksum.toNat =
        Image.byteSum (sampleImage.bytes.toList.drop headerSize) % 0x10000 := by
  obtain ⟨hheader, -, -, -, hchecksum, -⟩ :=
    memory_integrity load_sampleStory reachable_sampleMachine.step
  refine ⟨by decide +kernel, ?_, hchecksum⟩
  rw [hheader]
  decide +kernel

end Machine

end StoryMachine
