import Mathlib.Data.List.DropRight
import StoryMachine.LineSource

/-!
# Lines read back

* `LineSource.answer`, `LineSource.Delivers` : what a source answers to each request, and a source that gives its lines
  in order and then only reports the end of input;
* `TypedLine` : a line as it is typed, with carriage returns before its newline; its `body` and `bytes`;
* `trim_dropReturn`, `TypedLine.trim_body` : however many carriage returns the first cut leaves, the text is what
  remains;
* `scan_append` : what a scan does with bytes that are not newlines; `scan_line`, `scan_last` : what it makes of those
  up to the next newline, and of those behind the last one;
* `ofBytes_typed` : the lines at the front of a stream, whatever follows them;
* `ofBytes_delivers` : **lines are read back as they were typed, whatever their terminators.**
-/

namespace StoryMachine.LineSource

/-! ## Requests -/

/-- The answer to a request, where the first one has number 0. -/
def answer (source : LineSource) : Nat → Except InputFailure (List UInt8)
  | 0 => source.next.1
  | number + 1 => source.next.2.answer number

/-- The lines come in order, and every request behind them finds the end of input. -/
def Delivers (source : LineSource) (lines : List (List UInt8)) : Prop :=
  ∀ number, source.answer number =
    match lines[number]? with
    | some line => .ok line
    | none => .error .endOfInput

theorem answer_eq (source : LineSource) (number : Nat) :
    source.answer number = source.replies[number]?.getD (.error source.final) := by
  induction number generalizing source with
  | zero =>
    rcases source with ⟨_ | ⟨reply, replies⟩, final⟩
    · rfl
    · rfl
  | succ number ih =>
    rw [answer, ih]
    rcases source with ⟨_ | ⟨reply, replies⟩, final⟩
    · rfl
    · rfl

theorem delivers_ofLines (lines : List (List UInt8)) : (ofLines lines).Delivers lines := by
  intro number
  rw [answer_eq, ofLines, List.getElem?_map]
  cases lines[number]? with
  | none => rfl
  | some line => rfl

/-! ## Carriage returns -/

theorem trim_concat_return (line : List UInt8) : trim (line ++ [carriageReturn]) = trim line :=
  List.rdropWhile_concat_pos _ _ _ (by simp)

/-- The one carriage return that is cut off first would have been cut off with the others. -/
theorem trim_dropReturn (line : List UInt8) : trim (dropReturn line) = trim line := by
  unfold dropReturn
  split
  · rename_i hlast
    obtain ⟨front, rfl⟩ := List.getLast?_eq_some_iff.mp hlast
    rw [List.dropLast_concat, trim_concat_return]
  · rfl

theorem trim_append_returns (line : List UInt8) (count : Nat) :
    trim (line ++ List.replicate count carriageReturn) = trim line := by
  induction count with
  | zero => rw [List.replicate_zero, List.append_nil]
  | succ count ih => rw [List.replicate_succ', ← List.append_assoc, trim_concat_return, ih]

theorem trim_eq_self {line : List UInt8} (h : line.getLast? ≠ some carriageReturn) : trim line = line := by
  refine List.rdropWhile_eq_self_iff.mpr fun hne => ?_
  rw [List.getLast?_eq_some_getLast hne] at h
  simpa using h

/-! ## Typed lines -/

/-- A line as it is typed: a text, and the number of carriage returns between it and the newline. Together they fit
into the line buffer, as up to 65000 bytes of text and up to 500 carriage returns do. -/
structure TypedLine where
  text : List UInt8
  returns : Nat
  newline_not_mem : Text.newline ∉ text
  getLast?_ne : text.getLast? ≠ some carriageReturn
  fits : text.length + returns < bufferSize

namespace TypedLine

/-- The bytes before the newline. -/
def body (line : TypedLine) : List UInt8 :=
  line.text ++ List.replicate line.returns carriageReturn

/-- The line and its terminator. -/
def bytes (line : TypedLine) : List UInt8 :=
  line.body ++ [Text.newline]

variable (line : TypedLine)

theorem newline_not_mem_body : Text.newline ∉ line.body := by
  rw [body, List.mem_append, not_or]
  refine ⟨line.newline_not_mem, fun h => ?_⟩
  exact absurd (List.eq_of_mem_replicate h) (by decide)

theorem length_body : line.body.length = line.text.length + line.returns := by
  rw [body, List.length_append, List.length_replicate]

theorem trim_body : trim (dropReturn line.body) = line.text := by
  rw [trim_dropReturn, body, trim_append_returns, trim_eq_self line.getLast?_ne]

end TypedLine

/-! ## The scan -/

section
variable {body : List UInt8} (hbody : Text.newline ∉ body)
include hbody

/-- Bytes without a newline go to the buffer, as long as there is room. -/
theorem scan_append (buffer : Array UInt8) (rest : List UInt8) (hfits : buffer.size + body.length < bufferSize) :
    scan buffer (body ++ rest) = scan (buffer.toList ++ body).toArray rest := by
  induction body generalizing buffer with
  | nil => rw [List.nil_append, List.append_nil, Array.toArray_toList]
  | cons byte body ih =>
    rw [List.mem_cons, not_or] at hbody
    rw [List.length_cons] at hfits
    have hnext := ih hbody.2 (buffer.push byte) (by rw [Array.size_push]; omega)
    rw [List.cons_append, scan, if_neg (Ne.symm hbody.1), if_pos (by omega), hnext, Array.toList_push,
      List.append_assoc]
    rfl

variable (hfits : body.length < bufferSize)
include hfits

/-- The bytes up to a newline are a line. -/
theorem scan_line (rest : List UInt8) :
    scan #[] (body ++ Text.newline :: rest) =
      { scan #[] rest with replies := .ok (dropReturn body) :: (scan #[] rest).replies } := by
  rw [scan_append hbody #[] _ (by simpa using hfits), scan, if_pos rfl]
  rfl

/-- The bytes behind the last newline are a line, if there are any. -/
theorem scan_last :
    scan #[] body = if body = [] then { replies := [] } else { replies := [.ok (dropReturn body)] } := by
  have hscan := scan_append hbody #[] [] (by simpa using hfits)
  rw [List.append_nil] at hscan
  rw [hscan, scan]
  simp

end

/-! ## Streams of typed lines -/

theorem ofBytes_line (line : TypedLine) (rest : List UInt8) :
    ofBytes (line.bytes ++ rest) =
      { ofBytes rest with replies := .ok line.text :: (ofBytes rest).replies } := by
  have hfits : line.body.length < bufferSize := by
    rw [line.length_body]
    exact line.fits
  unfold ofBytes
  rw [TypedLine.bytes, List.append_assoc, List.singleton_append, scan_line line.newline_not_mem_body hfits]
  simp only [List.map_cons, Except.map, line.trim_body]

/-- The lines at the front of a stream come first, and then what the rest of it gives. -/
theorem ofBytes_typed (lines : List TypedLine) (rest : List UInt8) :
    ofBytes (lines.flatMap TypedLine.bytes ++ rest) =
      { ofBytes rest with replies := lines.map (.ok ·.text) ++ (ofBytes rest).replies } := by
  induction lines with
  | nil => rfl
  | cons line lines ih => rw [List.flatMap_cons, List.append_assoc, ofBytes_line, ih, List.map_cons, List.cons_append]

/-- A line without terminator is lost if it is empty. -/
theorem ofBytes_text (line : TypedLine) :
    ofBytes line.text = ofLines (if line.text = [] then [] else [line.text]) := by
  have hfits := line.fits
  unfold ofBytes
  rw [scan_last line.newline_not_mem (by omega)]
  by_cases hempty : line.text = []
  · rw [if_pos hempty, if_pos hempty]
    rfl
  · rw [if_neg hempty, if_neg hempty]
    simp only [List.map_cons, List.map_nil, Except.map, trim_dropReturn, trim_eq_self line.getLast?_ne]
    rfl

/-- Typed lines are delivered in front of those that the rest of the stream gives. -/
theorem delivers_typed (lines : List TypedLine) {rest : List UInt8} {texts : List (List UInt8)}
    (hrest : ofBytes rest = ofLines texts) :
    (ofBytes (lines.flatMap TypedLine.bytes ++ rest)).Delivers (lines.map (·.text) ++ texts) := by
  have hlines : ofBytes (lines.flatMap TypedLine.bytes ++ rest) = ofLines (lines.map (·.text) ++ texts) := by
    rw [ofBytes_typed, hrest]
    simp [ofLines]
  rw [hlines]
  exact delivers_ofLines _

/-- **Lines are read back as they were typed.** Whatever terminators they have, a stream of lines gives just their
texts, in order, and then the end of input forever. A last line without its terminator is given too, unless it is
empty: then it is the only one that is lost. -/
theorem ofBytes_delivers (lines : List TypedLine) :
    (ofBytes (lines.flatMap TypedLine.bytes)).Delivers (lines.map (·.text)) ∧
    ∀ last : TypedLine,
      (last.text ≠ [] →
        (ofBytes (lines.flatMap TypedLine.bytes ++ last.text)).Delivers ((lines ++ [last]).map (·.text))) ∧
      (last.text = [] →
        (ofBytes (lines.flatMap TypedLine.bytes ++ last.text)).Delivers (lines.map (·.text))) := by
  refine ⟨?_, fun last => ⟨fun hne => ?_, fun hempty => ?_⟩⟩
  · have hlines := @delivers_typed lines [] [] rfl
    rwa [List.append_nil, List.append_nil] at hlines
  · have hlast : ofBytes last.text = ofLines [last.text] := by rw [ofBytes_text, if_neg hne]
    rw [List.map_append]
    exact delivers_typed lines hlast
  · have hlast : ofBytes last.text = ofLines [] := by rw [ofBytes_text, if_pos hempty]
    have hlines := delivers_typed lines hlast
    rwa [List.append_nil] at hlines

/-- An empty line that ends in a newline alone. -/
def blankLine : TypedLine :=
  ⟨[], 0, by decide, by decide, by decide⟩

/-- A line with a carriage return inside, and two more before its newline. -/
def brokenLine : TypedLine :=
  ⟨[0x61, 0x0D, 0x62], 2, by decide, by decide, by decide⟩

/-- 65000 bytes of text and 500 carriage returns. -/
def longLine : TypedLine where
  text := List.replicate 65000 0x61
  returns := 500
  newline_not_mem h := absurd (List.eq_of_mem_replicate h) (by decide)
  getLast?_ne := by
    rw [List.getLast?_replicate]
    decide
  fits := by
    rw [List.length_replicate]
    decide

theorem ofBytes_delivers_sample :
    (ofBytes ([longLine, blankLine, brokenLine].flatMap TypedLine.bytes)).Delivers
        [List.replicate 65000 0x61, [], [0x61, 0x0D, 0x62]] ∧
      (ofBytes ([longLine, blankLine].flatMap TypedLine.bytes ++ [0x61, 0x0D, 0x62])).Delivers
        [List.replicate 65000 0x61, [], [0x61, 0x0D, 0x62]] ∧
      (ofBytes ([longLine].flatMap TypedLine.bytes ++ [])).Delivers [List.replicate 65000 0x61] :=
  ⟨(ofBytes_delivers [longLine, blankLine, brokenLine]).1,
    ((ofBytes_delivers [longLine, blankLine]).2 brokenLine).1 (by decide),
    ((ofBytes_delivers [longLine]).2 blankLine).2 rfl⟩

end StoryMachine.LineSource
