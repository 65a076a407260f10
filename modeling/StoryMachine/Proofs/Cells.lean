import StoryMachine.Proofs.Access
import StoryMachine.Proofs.Agreement

/-!
# Cells

A variable is kept in one of three kinds of storage, by its number: on the top of the stack, in a slot of the running
routine's frame, or in a word of the image. Each of them is a place that holds one value.

* `Cell Good get set` : what it takes to be such a place; a cell of a part is a cell of the whole (`Cell.within`);
* `Stack.cell_top`, `Frame.cell_local`, `Image.cell_word` : the three kinds; `Stack.pop_of_push` : what is pushed is
  popped;
* `Store.exists_variable` : **every variable is a cell of the store.**
-/

namespace StoryMachine

/-! ## Cells -/

section
variable {σ τ α : Type}

/-- A place that holds one value, in good states: whether it can be set does not depend on the value, what is set is
what is found there, the last value that is set hides the ones before it, and the value that was there at first brings
the first state back. -/
structure Cell (Good : σ → Prop) (get : σ → Except Error α) (set : α → σ → Except Error σ) : Prop where
  exists_set : ∀ {s t : σ} {a : α} (b : α), Good s → set a s = .ok t → ∃ u, set b s = .ok u
  get_set : ∀ {s t : σ} {a : α}, Good s → set a s = .ok t → get t = .ok a
  set_set : ∀ {s t : σ} {a : α} (b : α), Good s → set a s = .ok t → set b t = set b s
  set_back : ∀ {s t : σ} {a b : α}, Good s → get s = .ok a → set b s = .ok t → set a t = .ok s

namespace Cell

/-- Setting the value that is there changes nothing. -/
theorem set_get {Good : σ → Prop} {get : σ → Except Error α} {set : α → σ → Except Error σ}
    (h : Cell Good get set) {s t : σ} {a : α} (hs : Good s) (hget : get s = .ok a) (hset : set a s = .ok t) :
    t = s := by
  have hback := h.set_back hs hget hset
  rw [h.set_set a hs hset, hset] at hback
  cases hback
  rfl

theorem mono {Good Fine : σ → Prop} {get : σ → Except Error α} {set : α → σ → Except Error σ}
    (h : Cell Good get set) (hgood : ∀ s, Fine s → Good s) : Cell Fine get set where
  exists_set b hs := h.exists_set b (hgood _ hs)
  get_set hs := h.get_set (hgood _ hs)
  set_set b hs := h.set_set b (hgood _ hs)
  set_back hs := h.set_back (hgood _ hs)

/-- A cell of a part is a cell of the whole. -/
theorem within {Good : τ → Prop} {get : τ → Except Error α} {set : α → τ → Except Error τ} {part : σ → τ}
    {replace : σ → τ → σ} (h : Cell Good get set) (hput : ∀ s t, part (replace s t) = t)
    (hget : ∀ s, replace s (part s) = s) (htwice : ∀ s t u, replace (replace s t) u = replace s u) :
    Cell (fun s => Good (part s)) (fun s => get (part s)) (fun a s => return replace s (← set a (part s))) where
  exists_set {s _ _} b hs hset := by
    obtain ⟨u, hu, -⟩ := exists_of_bind_eq_ok hset
    obtain ⟨v, hv⟩ := h.exists_set b hs hu
    rw [hv]
    exact ⟨replace s v, rfl⟩
  get_set hs hset := by
    obtain ⟨u, hu, hset⟩ := exists_of_bind_eq_ok hset
    cases hset
    rw [hput, h.get_set hs hu]
  set_set b hs hset := by
    obtain ⟨u, hu, hset⟩ := exists_of_bind_eq_ok hset
    cases hset
    rw [hput, h.set_set b hs hu]
    simp only [htwice]
  set_back hs hfound hset := by
    obtain ⟨u, hu, hset⟩ := exists_of_bind_eq_ok hset
    cases hset
    rw [hput, h.set_back hs hfound hu, ok_bind, htwice, hget]
    rfl

end Cell

end

/-! ## The top of the stack -/

namespace Stack

variable {stack after : Stack} {rest : Array UInt16} {top value : UInt16}

theorem top_of_push (hvalues : stack.values = rest.push top) (hfloor : stack.floor < stack.size) (ifEmpty : Error) :
    stack.top ifEmpty = .ok top := by
  rw [Stack.top, if_neg (by omega), hvalues, Array.back?_push]

theorem replaceTop_of_push (hvalues : stack.values = rest.push top) (hfloor : stack.floor < stack.size)
    (value : UInt16) : stack.replaceTop value = .ok { stack with values := rest.push value } := by
  rw [replaceTop, top_of_push hvalues hfloor, ok_bind, hvalues, Array.pop_push]
  rfl

theorem exists_push_of_replaceTop (h : stack.replaceTop value = .ok after) :
    ∃ (rest : Array UInt16) (top : UInt16), stack.values = rest.push top ∧ stack.floor < stack.size ∧
      after.floor < after.size ∧ after = { stack with values := rest.push value } := by
  obtain ⟨top, htop, -⟩ := exists_of_bind_eq_ok h
  obtain ⟨hfloor, hback⟩ := of_top htop
  obtain ⟨rest, hvalues⟩ := Array.back?_eq_some_iff.mp hback
  rw [replaceTop_of_push hvalues hfloor] at h
  cases h
  refine ⟨rest, top, hvalues, hfloor, ?_, rfl⟩
  simpa [size, hvalues] using hfloor

theorem cell_top : Cell (fun _ => True) peek fun value stack => stack.replaceTop value where
  exists_set other _ h := by
    obtain ⟨rest, top, hvalues, hfloor, -⟩ := exists_push_of_replaceTop h
    exact ⟨_, replaceTop_of_push hvalues hfloor other⟩
  get_set _ h := by
    obtain ⟨rest, top, -, -, hfloor, rfl⟩ := exists_push_of_replaceTop h
    exact top_of_push rfl hfloor _
  set_set other _ h := by
    obtain ⟨rest, top, hvalues, hfloor, hfloor', rfl⟩ := exists_push_of_replaceTop h
    rw [replaceTop_of_push hvalues hfloor]
    exact replaceTop_of_push rfl hfloor' other
  set_back _ hpeek h := by
    obtain ⟨rest, top, hvalues, hfloor, hfloor', rfl⟩ := exists_push_of_replaceTop h
    rw [peek, top_of_push hvalues hfloor] at hpeek
    cases hpeek
    rw [replaceTop_of_push rfl hfloor', ← hvalues]

/-- A word that was pushed above the floor is popped again, and leaves nothing behind. -/
theorem pop_of_push (h : stack.push value = .ok after) (hfloor : stack.floor ≤ stack.size) :
    ∃ popped, after.pop = .ok (value, popped) ∧ popped.SameWords stack := by
  obtain ⟨-, hvalues, hcapacity, hsame⟩ := of_push h
  have habove : after.floor < after.size := by
    rw [hsame, size, hvalues, Array.size_push]
    unfold size at hfloor
    omega
  refine ⟨{ after with values := after.values.pop, spare := value :: after.spare }, ?_, ?_, hcapacity, hsame⟩
  · rw [pop, top_of_push hvalues habove]
    rfl
  · rw [hvalues, Array.pop_push]

end Stack

/-! ## Slots of frames -/

namespace Frame

variable {frame : Frame} {index : Int}

theorem writeLocal_of_lt (hone : 1 ≤ index) (hused : index ≤ frame.numLocals) (hslot : index.toNat - 1 < maxLocals)
    (value : UInt16) :
    frame.writeLocal index value = .ok { frame with locals := frame.locals.set (index.toNat - 1) value } := by
  rw [writeLocal, if_neg (by omega), dif_pos hslot]

theorem readLocal_of_lt (hone : 1 ≤ index) (hused : index ≤ frame.numLocals) (hslot : index.toNat - 1 < maxLocals) :
    frame.readLocal index = .ok frame.locals[index.toNat - 1] := by
  rw [readLocal, if_neg (by omega), dif_pos hslot]

theorem cell_local (index : Int) :
    Cell (fun _ => True) (readLocal · index) fun value frame => frame.writeLocal index value where
  exists_set other _ h := by
    obtain ⟨hone, hused, hslot, -⟩ := of_writeLocal h
    exact ⟨_, writeLocal_of_lt hone hused hslot other⟩
  get_set {frame _ value} _ h := by
    obtain ⟨hone, hused, hslot, rfl⟩ := of_writeLocal h
    have hread := @readLocal_of_lt { frame with locals := frame.locals.set (index.toNat - 1) value } index hone hused
      hslot
    rw [hread, Vector.getElem_set_self]
  set_set {frame _ value} other _ h := by
    obtain ⟨hone, hused, hslot, rfl⟩ := of_writeLocal h
    have hover := @writeLocal_of_lt { frame with locals := frame.locals.set (index.toNat - 1) value } index hone hused
      hslot other
    rw [hover, Vector.set_set, writeLocal_of_lt hone hused hslot]
  set_back {frame _ _ other} _ hread h := by
    obtain ⟨hone, hused, hslot, rfl⟩ := of_writeLocal h
    rw [readLocal_of_lt hone hused hslot] at hread
    cases hread
    have hback := @writeLocal_of_lt { frame with locals := frame.locals.set (index.toNat - 1) other } index hone hused
      hslot frame.locals[index.toNat - 1]
    rw [hback, Vector.set_set, Vector.set_getElem_self]

/-- Reading a local looks at one slot. -/
theorem readLocal_congr {frame : Frame} {locals : Vector UInt16 maxLocals} {index : Int}
    (h : locals[index.toNat - 1]? = frame.locals[index.toNat - 1]?) :
    { frame with locals }.readLocal index = frame.readLocal index := by
  unfold readLocal
  split
  · rfl
  · split
    · rename_i hslot
      rw [Vector.getElem?_eq_getElem hslot, Vector.getElem?_eq_getElem hslot] at h
      rw [Option.some.inj h]
    · rfl

end Frame

namespace CallStack

theorem top?_replaceTop (calls : CallStack) (frame : Frame) : (calls.replaceTop frame).top? = some frame :=
  Array.back?_push

theorem replaceTop_replaceTop (calls : CallStack) (frame other : Frame) :
    (calls.replaceTop frame).replaceTop other = calls.replaceTop other := by
  simp [replaceTop]

theorem replaceTop_of_top? {calls : CallStack} {frame : Frame} (h : calls.top? = some frame) :
    calls.replaceTop frame = calls := by
  obtain ⟨callers, hframes⟩ := Store.exists_push_of_top? h
  rw [replaceTop, hframes, Array.pop_push, ← hframes]

end CallStack

/-! ## Words of the image -/

namespace Image

/-- A write of a word that succeeded stays inside dynamic memory. -/
theorem le_static_of_writeWord {image after : Image} {address : UInt32} {value : UInt16} (hgood : image.WellFormed)
    (h : image.writeWord address value = .ok after) : address.toNat + 2 ≤ image.header.staticBase.toNat := by
  by_contra hbeyond
  rw [writeWord_refused hgood (by omega)] at h
  cases h

theorem cell_word (address : UInt32) :
    Cell WellFormed (·.readWord address) fun value image => image.writeWord address value where
  exists_set other hgood h := exists_writeWord hgood (le_static_of_writeWord hgood h) other
  get_set hgood h := readWord_of_writeWord hgood h
  set_set other hgood h := by
    have hputs := puts_of_writeWord hgood h
    have hmiddle := hputs.sameStory.wellFormed hgood
    have hinside := le_static_of_writeWord hgood h
    obtain ⟨after, hafter⟩ := exists_writeWord hgood hinside other
    obtain ⟨after', hafter'⟩ := exists_writeWord hmiddle (by rwa [hputs.sameStory.header_eq]) other
    have hover := hputs.overwrite (puts_of_writeWord hmiddle hafter') rfl
    rw [hafter, hafter', hover.unique (puts_of_writeWord hgood hafter)]
  set_back {image _ value _} hgood hread h := by
    have hputs := puts_of_writeWord hgood h
    have hmiddle := hputs.sameStory.wellFormed hgood
    have hinside := le_static_of_writeWord hgood h
    obtain ⟨after, hafter⟩ := exists_writeWord hmiddle (by rwa [hputs.sameStory.header_eq]) value
    have hover := hputs.overwrite (puts_of_writeWord hmiddle hafter) rfl
    have hfirst : image.Puts address.toNat (wordBytes value) image := .of_holdsAt (Holds.of_readWord hread)
    rw [hafter, hover.unique hfirst]

theorem readWord_congr {image after : Image} {address : UInt32} (hsize : after.bytes.size = image.bytes.size)
    (hhigh : after.bytes[address.toNat]? = image.bytes[address.toNat]?)
    (hlow : after.bytes[(address + 1).toNat]? = image.bytes[(address + 1).toNat]?) :
    after.readWord address = image.readWord address := by
  unfold readWord length cell
  rw [hsize, hhigh, hlow]

/-- The tables of a loaded story begin below 2^16. -/
theorem globals_lt_of_load {file : Array UInt8} {image : Image} (h : load file = .ok image) :
    image.header.globals.toNat < 0x10000 := by
  obtain ⟨hheader, -⟩ := of_load h
  rw [hheader]
  exact toNat_toUInt32_lt _

end Image

namespace Store

/-- The place of a global's word. -/
def globalPlace (image : Image) (number : UInt8) : Nat :=
  image.header.globals.toNat + 2 * (number.toNat - firstGlobal.toNat)

theorem toNat_globalAddress {image : Image} (hglobals : image.header.globals.toNat < 0x10000) {number : UInt8}
    (hnumber : firstGlobal ≤ number) : (globalAddress image number).toNat = globalPlace image number := by
  have hbound := number.toNat_lt
  have hindex : (number - firstGlobal).toUInt32.toNat = number.toNat - firstGlobal.toNat := by
    rw [UInt8.toNat_toUInt32, UInt8.toNat_sub_of_le _ _ hnumber]
  have hdouble : (2 * (number - firstGlobal).toUInt32).toNat = 2 * (number.toNat - firstGlobal.toNat) := by
    rw [UInt32.toNat_mul, hindex]
    exact Nat.mod_eq_of_lt (by simp; omega)
  rw [globalAddress, toNat_add_of_lt (by omega), hdouble, globalPlace]

theorem globalAddress_congr {image after : Image} (h : image.SameStory after) (number : UInt8) :
    globalAddress after number = globalAddress image number := by
  rw [globalAddress, globalAddress, h.header_eq]

theorem globalAddress_of_writeWord {image after : Image} {address : UInt32} {value : UInt16}
    (hgood : image.WellFormed) (h : image.writeWord address value = .ok after) (number : UInt8) :
    globalAddress after number = globalAddress image number :=
  globalAddress_congr (Image.puts_of_writeWord hgood h).sameStory number

theorem cell_global (number : UInt8) :
    Cell Image.WellFormed (fun image => image.readWord (globalAddress image number))
      fun value image => image.writeWord (globalAddress image number) value where
  exists_set other hgood h := (Image.cell_word _).exists_set other hgood h
  get_set hgood h := by
    rw [globalAddress_of_writeWord hgood h]
    exact (Image.cell_word _).get_set hgood h
  set_set other hgood h := by
    rw [globalAddress_of_writeWord hgood h]
    exact (Image.cell_word _).set_set other hgood h
  set_back hgood hread h := by
    rw [globalAddress_of_writeWord hgood h]
    exact (Image.cell_word _).set_back hgood hread h

/-! ## Variables by number -/

/-- A change of the running invocation's frame that succeeded. -/
theorem exists_of_updateFrame {missing : Error} {update : Frame → Except Error Frame} {store after : Store}
    (h : (match store.calls.top? with
      | some frame => return { store with calls := store.calls.replaceTop (← update frame) }
      | none => .error missing) = Except.ok after) :
    ∃ frame changed, store.calls.top? = some frame ∧ update frame = .ok changed ∧
      after = { store with calls := store.calls.replaceTop changed } := by
  cases htop : store.calls.top? with
  | none =>
    rw [htop] at h
    cases h
  | some frame =>
    rw [htop] at h
    obtain ⟨changed, hchanged, h⟩ := exists_of_bind_eq_ok h
    cases h
    exact ⟨frame, changed, rfl, hchanged, rfl⟩

/-- A cell of a frame is a cell of a store, in the running invocation. -/
theorem cell_frame {get : Frame → Except Error UInt16} {set : UInt16 → Frame → Except Error Frame}
    (h : Cell (fun _ => True) get set) (unread unset : Error) :
    Cell (fun _ => True)
      (fun store : Store =>
        match store.calls.top? with
        | some frame => get frame
        | none => .error unread)
      fun value store =>
        match store.calls.top? with
        | some frame => return { store with calls := store.calls.replaceTop (← set value frame) }
        | none => .error unset where
  exists_set other _ hset := by
    obtain ⟨frame, changed, htop, hchanged, -⟩ := exists_of_updateFrame hset
    obtain ⟨changed', hchanged'⟩ := h.exists_set other trivial hchanged
    rw [htop]
    dsimp only
    rw [hchanged']
    exact ⟨_, rfl⟩
  get_set _ hset := by
    obtain ⟨frame, changed, -, hchanged, rfl⟩ := exists_of_updateFrame hset
    dsimp only
    rw [CallStack.top?_replaceTop]
    exact h.get_set trivial hchanged
  set_set other _ hset := by
    obtain ⟨frame, changed, htop, hchanged, rfl⟩ := exists_of_updateFrame hset
    dsimp only
    rw [CallStack.top?_replaceTop, htop]
    dsimp only
    rw [h.set_set other trivial hchanged]
    simp only [CallStack.replaceTop_replaceTop]
  set_back _ hget hset := by
    obtain ⟨frame, changed, htop, hchanged, rfl⟩ := exists_of_updateFrame hset
    rw [htop] at hget
    dsimp only
    rw [CallStack.top?_replaceTop]
    dsimp only
    rw [h.set_back trivial hget hchanged, ok_bind, CallStack.replaceTop_replaceTop,
      CallStack.replaceTop_of_top? htop]
    rfl

theorem number_cases (number : UInt8) :
    number = 0 ∨ (number ≠ 0 ∧ number < firstGlobal) ∨ (number ≠ 0 ∧ ¬ number < firstGlobal) := by
  by_cases hzero : number = 0
  · exact .inl hzero
  · by_cases hlocal : number < firstGlobal
    · exact .inr (.inl ⟨hzero, hlocal⟩)
    · exact .inr (.inr ⟨hzero, hlocal⟩)

theorem peek_local {number : UInt8} (hzero : number ≠ 0) (hlocal : number < firstGlobal) :
    peek number = readLocal number := by
  rw [peek, if_neg hzero, read, if_neg hzero, if_pos hlocal]

theorem peek_global {number : UInt8} (hzero : number ≠ 0) (hglobal : ¬ number < firstGlobal) :
    peek number = .query fun store => store.image.readWord (globalAddress store.image number) := by
  rw [peek, if_neg hzero, read, if_neg hzero, if_neg hglobal, readGlobal, if_neg hglobal]

theorem replace_of_ne_zero {number : UInt8} (hzero : number ≠ 0) (value : UInt16) :
    replace number value = write number value :=
  if_neg hzero

theorem peek_of_ne_zero {number : UInt8} (hzero : number ≠ 0) : peek number = read number :=
  if_neg hzero

theorem write_local {number : UInt8} (hzero : number ≠ 0) (hlocal : number < firstGlobal) (value : UInt16) :
    write number value = writeLocal number value := by
  rw [write, if_neg hzero, if_pos hlocal]

theorem write_global {number : UInt8} (hzero : number ≠ 0) (hglobal : ¬ number < firstGlobal) (value : UInt16) :
    write number value = changeImage fun image => image.writeWord (globalAddress image number) value := by
  rw [write, if_neg hzero, if_neg hglobal, writeGlobal, if_neg hglobal]

/-- Every variable is a cell of the store. -/
theorem exists_variable (number : UInt8) :
    ∃ (get : Store → Except Error UInt16) (set : UInt16 → Store → Except Error Store),
      peek number = .query get ∧ (∀ value, replace number value = .change (set value)) ∧
        Cell (fun store => store.image.WellFormed) get set := by
  rcases number_cases number with rfl | ⟨hzero, hlocal⟩ | ⟨hzero, hglobal⟩
  · have hcell := @Cell.within Store Stack UInt16 _ _ _ Store.stack (fun store stack => { store with stack })
      Stack.cell_top (fun _ _ => rfl) (fun _ => rfl) fun _ _ _ => rfl
    exact ⟨_, _, rfl, fun _ => rfl, hcell.mono fun _ _ => trivial⟩
  · have hcell := cell_frame (Frame.cell_local number.toNat) (.localReadOutside number) (.localWrittenOutside number)
    refine ⟨_, _, peek_local hzero hlocal, fun value => ?_, hcell.mono fun _ _ => trivial⟩
    rw [replace_of_ne_zero hzero, write_local hzero hlocal]
    rfl
  · have hcell := @Cell.within Store Image UInt16 _ _ _ Store.image (fun store image => { store with image })
      (cell_global number) (fun _ _ => rfl) (fun _ => rfl) fun _ _ _ => rfl
    refine ⟨_, _, peek_global hzero hglobal, fun value => ?_, hcell⟩
    rw [replace_of_ne_zero hzero, write_global hzero hglobal]
    rfl

end Store

end StoryMachine
