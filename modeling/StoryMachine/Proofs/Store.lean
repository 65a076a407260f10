import StoryMachine.Proofs.Image
import StoryMachine.Store

/-!
# What can happen to a store

* `Stack.of_push`, `Stack.of_pop`, `Stack.of_replaceTop`, `Stack.of_leave` : the stack behind each
  operation that succeeded;
* `Store.Change` : a word is pushed, popped or replaced above the floor, a local of the running routine
  is set, or a byte of dynamic memory is written;
* `Store.floors` : the floors of all active routines, the running one's last. Entering a routine
  appends the height of the stack (`floors_enter`), leaving it drops the last one (`floors_leave`);
* `Store.WellFormed` : the floors start at 0, never fall and end below the top of the stack, and no
  limit is exceeded; every change keeps it, and so do entering and leaving routines;
* `Store.law` : steps on a store are made of these changes; reading and writing variables obey it.
-/

namespace StoryMachine

open Relation (ReflTransGen)

/-! ## The stack -/

namespace Stack

variable {stack after : Stack} {value : UInt16}

theorem of_push (h : stack.push value = .ok after) :
    stack.size < stack.capacity ∧ after.values = stack.values.push value ∧
      after.capacity = stack.capacity ∧ after.floor = stack.floor := by
  unfold push at h
  split at h
  · cases h
  · rename_i hsize
    cases h
    exact ⟨by omega, rfl, rfl, rfl⟩

theorem of_top {ifEmpty : Error} (h : stack.top ifEmpty = .ok value) :
    stack.floor < stack.size ∧ stack.values.back? = some value := by
  unfold top at h
  split at h
  · cases h
  · rename_i hsize
    cases hback : stack.values.back? with
    | none =>
      rw [hback] at h
      cases h
    | some top =>
      rw [hback] at h
      cases h
      exact ⟨by omega, rfl⟩

theorem of_pop (h : stack.pop = .ok (value, after)) :
    stack.floor < stack.size ∧ stack.values.back? = some value ∧
      after.values = stack.values.pop ∧ after.capacity = stack.capacity ∧
      after.floor = stack.floor := by
  obtain ⟨top, htop, h⟩ := exists_of_bind_eq_ok h
  cases h
  obtain ⟨hsize, hback⟩ := of_top htop
  exact ⟨hsize, hback, rfl, rfl, rfl⟩

theorem of_replaceTop (h : stack.replaceTop value = .ok after) :
    stack.floor < stack.size ∧ after = { stack with values := stack.values.pop.push value } := by
  obtain ⟨top, htop, h⟩ := exists_of_bind_eq_ok h
  cases h
  exact ⟨(of_top htop).1, rfl⟩

/-- Leaving a routine whose floor is not above the top drops the words above the floor. -/
theorem of_leave {saved : Int} (h : stack.leave saved = .ok after)
    (hfloor : stack.floor ≤ stack.size) :
    0 ≤ stack.floor ∧ after.values = stack.values.extract 0 stack.floor.toNat ∧
      after.capacity = stack.capacity ∧ after.floor = saved := by
  unfold leave at h
  split at h
  · rename_i hroom
    cases h
    refine ⟨hroom.1, ?_, rfl, rfl⟩
    have : stack.floor.toNat - stack.size = 0 := by omega
    simp [moveTop, this]
  · cases h

/-- A routine whose floor is not above the top can be left. -/
theorem exists_leave (hnonneg : 0 ≤ stack.floor) (hfloor : stack.floor ≤ stack.size) (saved : Int) :
    ∃ after, stack.leave saved = .ok after := by
  have hroom : stack.floor ≤ stack.room := by
    unfold room
    omega
  unfold leave
  rw [if_pos ⟨hnonneg, hroom⟩]
  exact ⟨_, rfl⟩

/-- Leaving a region that has just been entered brings the stack back, the cells above its top among them. -/
theorem leave_enter (stack : Stack) : stack.enter.leave stack.floor = .ok stack := by
  have hroom : 0 ≤ stack.enter.floor ∧ stack.enter.floor ≤ stack.enter.room := by
    show (0 : Int) ≤ stack.size ∧ (stack.size : Int) ≤ (stack.size + stack.spare.length : Nat)
    omega
  rw [leave, if_pos hroom]
  simp [enter, moveTop, size]

theorem push_guarded (stack : Stack) (value : UInt16) : Guarded (stack.push value) := by
  unfold push
  split
  · exact .error rfl
  · exact .ok _

theorem top_guarded (h : 0 ≤ stack.floor) {ifEmpty : Error} (he : ifEmpty.operational) :
    Guarded (stack.top ifEmpty) := by
  unfold top
  split
  · exact .error he
  · rename_i hsize
    have hpos : 0 < stack.values.size := by
      unfold size at hsize
      omega
    rw [Array.back?_eq_getElem?, Array.getElem?_eq_getElem (by omega)]
    exact .ok _

theorem pop_guarded (h : 0 ≤ stack.floor) : Guarded stack.pop :=
  .bind (top_guarded h rfl) fun _ _ => .pure _

theorem replaceTop_guarded (h : 0 ≤ stack.floor) (value : UInt16) :
    Guarded (stack.replaceTop value) :=
  .bind (top_guarded h rfl) fun _ _ => .pure _

end Stack

/-! ## Frames -/

namespace Frame

variable {frame after : Frame} {index : Int} {value : UInt16}

theorem of_writeLocal (h : frame.writeLocal index value = .ok after) :
    1 ≤ index ∧ index ≤ frame.numLocals ∧ ∃ hslot : index.toNat - 1 < maxLocals,
      after = { frame with locals := frame.locals.set (index.toNat - 1) value hslot } := by
  unfold writeLocal at h
  split at h
  · cases h
  · rename_i hindex
    split at h
    · rename_i hslot
      cases h
      exact ⟨by omega, by omega, hslot, rfl⟩
    · cases h

theorem readLocal_guarded (h : frame.numLocals ≤ maxLocals) (index : Int) :
    Guarded (frame.readLocal index) := by
  unfold readLocal
  split
  · exact .error rfl
  · split
    · exact .ok _
    · omega

theorem writeLocal_guarded (h : frame.numLocals ≤ maxLocals) (index : Int) (value : UInt16) :
    Guarded (frame.writeLocal index value) := by
  unfold writeLocal
  split
  · exact .error rfl
  · split
    · exact .ok _
    · omega

end Frame

theorem CallStack.of_push {calls after : CallStack} {frame : Frame}
    (h : calls.push frame = .ok after) :
    calls.depth < calls.capacity ∧ after = { calls with frames := calls.frames.push frame } := by
  unfold push at h
  split at h
  · cases h
  · cases h
    exact ⟨by omega, rfl⟩

/-! ## Changes of a store -/

namespace Store

/-- What a step can do to a store short of entering or leaving a routine. -/
inductive Change : Store → Store → Prop
  | push {store : Store} {value : UInt16} {stack : Stack} (h : store.stack.push value = .ok stack) :
      Change store { store with stack }
  | pop {store : Store} {value : UInt16} {stack : Stack} (h : store.stack.pop = .ok (value, stack)) :
      Change store { store with stack }
  | replaceTop {store : Store} {value : UInt16} {stack : Stack}
      (h : store.stack.replaceTop value = .ok stack) : Change store { store with stack }
  | setLocal {store : Store} {frame after : Frame} {index : Int} {value : UInt16}
      (htop : store.calls.top? = some frame) (h : frame.writeLocal index value = .ok after) :
      Change store { store with calls := store.calls.replaceTop after }
  | write {store : Store} {image : Image} (h : store.image.Write image) :
      Change store { store with image }

/-- The floors of the active routines, from the main one to the running one. -/
def floors (store : Store) : List Int :=
  store.calls.frames.toList.map Frame.savedFloor ++ [store.stack.floor]

/-- The representation invariant of a store. -/
structure WellFormed (store : Store) : Prop where
  image : store.image.WellFormed
  floors_start : store.floors.head? = some 0
  floors_sorted : store.floors.Pairwise (· ≤ ·)
  floor_le : store.stack.floor ≤ store.stack.size
  size_le : store.stack.size ≤ store.stack.capacity
  depth_le : store.calls.depth ≤ store.calls.capacity
  locals_le : ∀ frame ∈ store.calls.frames.toList, frame.numLocals ≤ maxLocals

theorem exists_push_of_top? {calls : CallStack} {frame : Frame} (h : calls.top? = some frame) :
    ∃ callers : Array Frame, calls.frames = callers.push frame :=
  Array.back?_eq_some_iff.mp h

theorem mem_of_top? {calls : CallStack} {frame : Frame} (h : calls.top? = some frame) :
    frame ∈ calls.frames.toList := by
  obtain ⟨callers, hframes⟩ := exists_push_of_top? h
  simp [hframes]

theorem floors_change {store after : Store} (h : Change store after) : after.floors = store.floors := by
  cases h with
  | push h => simp only [floors, (Stack.of_push h).2.2.2]
  | pop h => simp only [floors, (Stack.of_pop h).2.2.2.2]
  | replaceTop h => simp only [floors, (Stack.of_replaceTop h).2]
  | setLocal htop h =>
    obtain ⟨-, -, _, rfl⟩ := Frame.of_writeLocal h
    obtain ⟨callers, hframes⟩ := exists_push_of_top? htop
    simp [floors, CallStack.replaceTop, hframes]
  | write h => rfl

theorem floors_changes {store after : Store} (h : ReflTransGen Change store after) :
    after.floors = store.floors := by
  induction h with
  | refl => rfl
  | tail _ hchange ih => rw [floors_change hchange, ih]

/-! ## The invariant -/

section Invariant
variable {store : Store}

theorem WellFormed.floors_nonneg (h : store.WellFormed) : ∀ floor ∈ store.floors, 0 ≤ floor := by
  intro floor hfloor
  have hsorted := h.floors_sorted
  have hstart := h.floors_start
  rcases hfloors : store.floors with _ | ⟨first, rest⟩
  · rw [hfloors] at hfloor
    cases hfloor
  · rw [hfloors] at hsorted hstart hfloor
    cases hstart
    rcases List.mem_cons.mp hfloor with rfl | hmem
    · exact Int.le_refl 0
    · exact (List.pairwise_cons.mp hsorted).1 floor hmem

theorem WellFormed.floor_nonneg (h : store.WellFormed) : 0 ≤ store.stack.floor :=
  h.floors_nonneg _ (by simp [floors])

theorem WellFormed.le_floor (h : store.WellFormed) :
    ∀ floor ∈ store.floors, floor ≤ store.stack.floor := by
  intro floor hfloor
  have hsorted := h.floors_sorted
  rw [floors, List.pairwise_append] at hsorted
  rw [floors, List.mem_append, List.mem_singleton] at hfloor
  rcases hfloor with hfloor | rfl
  · exact hsorted.2.2 floor hfloor _ (List.mem_singleton_self _)
  · exact Int.le_refl _

theorem WellFormed.top_locals (h : store.WellFormed) {frame : Frame}
    (htop : store.calls.top? = some frame) : frame.numLocals ≤ maxLocals :=
  h.locals_le frame (mem_of_top? htop)

theorem WellFormed.change {after : Store} (hchange : Change store after) (h : store.WellFormed) :
    after.WellFormed := by
  have hfloors := floors_change hchange
  have hstart : after.floors.head? = some 0 := by rw [hfloors, h.floors_start]
  have hsorted : after.floors.Pairwise (· ≤ ·) := by rw [hfloors]; exact h.floors_sorted
  have hnonneg := h.floor_nonneg
  have hfloor := h.floor_le
  have hsize := h.size_le
  cases hchange with
  | push hpush =>
    obtain ⟨hroom, hvalues, hcapacity, hfloor'⟩ := Stack.of_push hpush
    refine ⟨h.image, hstart, hsorted, ?_, ?_, h.depth_le, h.locals_le⟩ <;>
      simp only [Stack.size, hvalues, hcapacity, hfloor', Array.size_push] at * <;> omega
  | pop hpop =>
    obtain ⟨habove, -, hvalues, hcapacity, hfloor'⟩ := Stack.of_pop hpop
    refine ⟨h.image, hstart, hsorted, ?_, ?_, h.depth_le, h.locals_le⟩ <;>
      simp only [Stack.size, hvalues, hcapacity, hfloor', Array.size_pop] at * <;> omega
  | replaceTop hreplace =>
    obtain ⟨habove, rfl⟩ := Stack.of_replaceTop hreplace
    refine ⟨h.image, hstart, hsorted, ?_, ?_, h.depth_le, h.locals_le⟩ <;>
      simp only [Stack.size, Array.size_push, Array.size_pop] at * <;> omega
  | @setLocal frame set index value htop hset =>
    obtain ⟨-, -, _, rfl⟩ := Frame.of_writeLocal hset
    obtain ⟨callers, hframes⟩ := exists_push_of_top? htop
    refine ⟨h.image, hstart, hsorted, hfloor, hsize, ?_, ?_⟩
    · have hdepth := h.depth_le
      simpa [CallStack.depth, CallStack.replaceTop, hframes] using hdepth
    · intro other hother
      have hlocals := h.locals_le
      simp only [CallStack.replaceTop, hframes, Array.pop_push, Array.toList_push, List.mem_append,
        List.mem_singleton] at hother hlocals
      rcases hother with hother | rfl
      · exact hlocals other (.inl hother)
      · exact hlocals frame (.inr rfl)
  | write hwrite =>
    exact ⟨h.image.write hwrite, hstart, hsorted, hfloor, hsize, h.depth_le, h.locals_le⟩

/-- A store in which nothing has been pushed and no routine called. -/
theorem WellFormed.fresh (himage : store.image.WellFormed) (hvalues : store.stack.values = #[])
    (hfloor : store.stack.floor = 0) (hframes : store.calls.frames = #[]) : store.WellFormed := by
  have hfloors : store.floors = [0] := by simp [floors, hframes, hfloor]
  refine ⟨himage, ?_, ?_, ?_, ?_, ?_, ?_⟩
  · rw [hfloors]
    rfl
  · rw [hfloors]
    exact List.pairwise_singleton _ _
  · simp [Stack.size, hvalues, hfloor]
  · simp [Stack.size, hvalues]
  · simp [CallStack.depth, hframes]
  · simp [hframes]

theorem WellFormed.changes {after : Store} (hchanges : ReflTransGen Change store after)
    (h : store.WellFormed) : after.WellFormed := by
  induction hchanges with
  | refl => exact h
  | tail _ hchange ih => exact ih.change hchange

end Invariant

/-! ## Entering and leaving routines -/

section Routines
variable {store : Store} {frame : Frame}

/-- A called routine gets a floor of its own at the top of the stack. -/
theorem floors_enter {calls : CallStack} (hpush : store.calls.push frame = .ok calls)
    (hsaved : frame.savedFloor = store.stack.floor) :
    ({ store with calls, stack := store.stack.enter } : Store).floors =
      store.floors ++ [(store.stack.size : Int)] := by
  obtain ⟨-, rfl⟩ := CallStack.of_push hpush
  simp [floors, Stack.enter, hsaved]

theorem WellFormed.enter {calls : CallStack} (h : store.WellFormed)
    (hpush : store.calls.push frame = .ok calls) (hsaved : frame.savedFloor = store.stack.floor)
    (hlocals : frame.numLocals ≤ maxLocals) :
    ({ store with calls, stack := store.stack.enter } : Store).WellFormed := by
  have hfloors := floors_enter hpush hsaved
  obtain ⟨hdepth, rfl⟩ := CallStack.of_push hpush
  refine ⟨h.image, ?_, ?_, Int.le_refl _, h.size_le, ?_, ?_⟩
  · rw [hfloors, List.head?_append, h.floors_start]
    rfl
  · rw [hfloors, List.pairwise_append]
    refine ⟨h.floors_sorted, List.pairwise_singleton _ _, ?_⟩
    intro floor hfloor size hsize
    obtain rfl := List.mem_singleton.mp hsize
    exact Int.le_trans (h.le_floor floor hfloor) h.floor_le
  · simp only [CallStack.depth, Array.size_push] at *
    omega
  · intro other hother
    simp only [Array.toList_push, List.mem_append, List.mem_singleton] at hother
    rcases hother with hother | rfl
    · exact h.locals_le other hother
    · exact hlocals

/-- A routine that is left takes its floor with it. -/
theorem floors_leave {stack : Stack} (htop : store.calls.top? = some frame)
    (hleave : store.stack.leave frame.savedFloor = .ok stack)
    (hfloor : store.stack.floor ≤ store.stack.size) :
    store.floors =
      ({ store with calls := store.calls.pop, stack } : Store).floors ++ [store.stack.floor] := by
  obtain ⟨-, -, -, hsaved⟩ := Stack.of_leave hleave hfloor
  obtain ⟨callers, hframes⟩ := exists_push_of_top? htop
  simp [floors, CallStack.pop, hframes, hsaved]

theorem WellFormed.leave {stack : Stack} (h : store.WellFormed)
    (htop : store.calls.top? = some frame)
    (hleave : store.stack.leave frame.savedFloor = .ok stack) :
    ({ store with calls := store.calls.pop, stack } : Store).WellFormed := by
  have hfloors := floors_leave htop hleave h.floor_le
  have hstart := h.floors_start
  have hsorted := h.floors_sorted
  have hfloor := h.floor_le
  have hsize := h.size_le
  have hdepth := h.depth_le
  have hlocals := h.locals_le
  obtain ⟨hnonneg, hvalues, hcapacity, hsaved⟩ := Stack.of_leave hleave hfloor
  obtain ⟨callers, hframes⟩ := exists_push_of_top? htop
  have hheight : stack.size = store.stack.floor.toNat := by
    simp only [Stack.size, hvalues, Array.size_extract] at *
    omega
  rw [hfloors, List.pairwise_append] at hsorted
  refine ⟨h.image, ?_, hsorted.1, ?_, ?_, ?_, ?_⟩
  · rw [hfloors, List.head?_append] at hstart
    rcases hne : ({ store with calls := store.calls.pop, stack } : Store).floors with _ | ⟨first, rest⟩
    · simp [floors] at hne
    · rw [hne] at hstart
      exact hstart
  · have hlast : stack.floor ≤ store.stack.floor :=
      hsorted.2.2 stack.floor (by simp [floors]) _ (List.mem_singleton_self _)
    change stack.floor ≤ stack.size
    rw [hheight]
    omega
  · rw [hheight, hcapacity]
    omega
  · simp only [CallStack.depth, CallStack.pop, hframes, Array.pop_push, Array.size_push] at *
    omega
  · intro other hother
    refine hlocals other ?_
    simp only [CallStack.pop, hframes, Array.pop_push] at hother
    simp [hframes, hother]

end Routines

/-! ## Steps on a store -/

/-- Steps on a store change it bit by bit, and raise errors that halt the machine. -/
def law : Law Store where
  Change := Change
  Good := WellFormed
  Raises _ error := error.operational
  good_of_change := WellFormed.change
  raises_of_change _ h := h

theorem obeys_changeStack {update : Stack → Except Error Stack}
    (hok : ∀ {store : Store} {stack}, update store.stack = .ok stack →
      Change store { store with stack })
    (herror : ∀ store : Store, store.WellFormed → Guarded (update store.stack)) :
    (changeStack update).Obeys law := by
  refine .change (fun store after h => ?_) fun store hstore error he => ?_
  · obtain ⟨stack, hstack, h⟩ := exists_of_bind_eq_ok h
    cases h
    exact .single (hok hstack)
  · exact (herror store hstore).bind (fun _ _ => .pure _) error he

theorem changes_of_writes {store : Store} {image : Image}
    (h : ReflTransGen Image.Write store.image image) :
    ReflTransGen Change store { store with image } := by
  induction h with
  | refl => exact .refl
  | @tail middle image _ hwrite ih =>
    have hchange : Change { store with image := middle } { store with image } := .write hwrite
    exact ih.tail hchange

theorem obeys_changeImage {update : Image → Except Error Image}
    (hok : ∀ {image after : Image}, update image = .ok after → ReflTransGen Image.Write image after)
    (herror : ∀ {image : Image}, image.WellFormed → Guarded (update image)) :
    (changeImage update).Obeys law := by
  refine .change (fun store after h => ?_) fun store hstore error he => ?_
  · obtain ⟨image, himage, h⟩ := exists_of_bind_eq_ok h
    cases h
    exact changes_of_writes (hok himage)
  · exact (herror hstore.image).bind (fun _ _ => .pure _) error he

theorem perform_pop (store : Store) :
    pop.perform store =
      match store.stack.pop with
      | .ok (value, stack) => (.ok value, { store with stack })
      | .error error => (.error error, store) := by
  unfold pop
  cases h : store.stack.pop with
  | error e => rw [Exec.perform_bind_error (by rw [Exec.perform_query, h])]
  | ok popped => rw [Exec.perform_bind_ok (by rw [Exec.perform_query, h])]; rfl

theorem obeys_pop : pop.Obeys law := by
  constructor
  · intro store _
    rw [perform_pop]
    cases h : store.stack.pop with
    | error e => exact .refl
    | ok popped => exact .single (.pop h)
  · intro store hstore error he
    rw [perform_pop] at he
    cases h : store.stack.pop with
    | error e =>
      rw [h] at he
      obtain rfl : e = error := by simpa using he
      exact Stack.pop_guarded hstore.floor_nonneg e h
    | ok popped =>
      rw [h] at he
      cases he

theorem obeys_push (value : UInt16) : (push value).Obeys law :=
  obeys_changeStack .push fun store _ => store.stack.push_guarded value

theorem obeys_readLocal (number : UInt8) : (readLocal number).Obeys law := by
  refine .query ?_
  intro store hstore error he
  cases htop : store.calls.top? with
  | none =>
    rw [htop] at he
    cases he
    rfl
  | some frame =>
    rw [htop] at he
    exact Frame.readLocal_guarded (hstore.top_locals htop) _ error he

theorem obeys_writeLocal (number : UInt8) (value : UInt16) :
    (writeLocal number value).Obeys law := by
  refine .change (fun store after h => ?_) fun store hstore error he => ?_
  · cases htop : store.calls.top? with
    | none =>
      rw [htop] at h
      cases h
    | some frame =>
      rw [htop] at h
      obtain ⟨frame', hset, h⟩ := exists_of_bind_eq_ok h
      cases h
      exact .single (.setLocal htop hset)
  · cases htop : store.calls.top? with
    | none =>
      rw [htop] at he
      cases he
      rfl
    | some frame =>
      rw [htop] at he
      have hset := Frame.writeLocal_guarded (hstore.top_locals htop) number.toNat value
      exact hset.bind (fun _ _ => .pure _) error he

theorem obeys_readGlobal (number : UInt8) : (readGlobal number).Obeys law := by
  unfold readGlobal
  split
  · exact .throw fun _ _ => rfl
  · exact .query fun store hstore => Image.readWord_guarded hstore.image _

theorem obeys_writeWord (address : Image → UInt32) (value : UInt16) :
    (changeImage fun image => image.writeWord (address image) value).Obeys law :=
  obeys_changeImage Image.writes_of_writeWord fun h => Image.writeWord_guarded h _ value

theorem obeys_writeByte (address : UInt32) (value : UInt8) :
    (changeImage fun image => image.writeByte address value).Obeys law :=
  obeys_changeImage Image.writes_of_writeByte fun h => Image.writeByte_guarded h address value

theorem obeys_writeGlobal (number : UInt8) (value : UInt16) :
    (writeGlobal number value).Obeys law := by
  unfold writeGlobal
  split
  · exact .throw fun _ _ => rfl
  · exact obeys_writeWord _ value

theorem obeys_read (number : UInt8) : (read number).Obeys law := by
  unfold read
  split
  · exact obeys_pop
  · split
    · exact obeys_readLocal number
    · exact obeys_readGlobal number

theorem obeys_write (number : UInt8) (value : UInt16) : (write number value).Obeys law := by
  unfold write
  split
  · exact obeys_push value
  · split
    · exact obeys_writeLocal number value
    · exact obeys_writeGlobal number value

theorem obeys_peek (number : UInt8) : (peek number).Obeys law := by
  unfold peek
  split
  · exact .query fun store hstore => Stack.top_guarded hstore.floor_nonneg rfl
  · exact obeys_read number

theorem obeys_replace (number : UInt8) (value : UInt16) : (replace number value).Obeys law := by
  unfold replace
  split
  · exact obeys_changeStack .replaceTop fun store hstore =>
      Stack.replaceTop_guarded hstore.floor_nonneg value
  · exact obeys_write number value

theorem obeys_add (number : UInt8) (delta : UInt16) : (add number delta).Obeys law :=
  .bind (obeys_peek number) fun _ => .bind (obeys_replace number _) fun _ => .pure _

end Store

end StoryMachine
