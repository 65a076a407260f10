/-!
# Output

A story prints to a sink, which belongs to whoever runs the story. A sink takes a text, or refuses it
for a reason of its own, and may then have taken the beginning of it. `Transcript` keeps what it takes.
-/

namespace StoryMachine

/-- Something to print to. -/
class Sink (S : Type) where
  /-- The bytes taken so far. -/
  written : S → List UInt8
  /-- Offers a text. There is a reason if the text is refused. -/
  write : List UInt8 → S → Option String × S
  written_of_taken : ∀ text sink, (write text sink).1 = none →
    written (write text sink).2 = written sink ++ text
  exists_written : ∀ text sink, ∃ count, written (write text sink).2 = written sink ++ text.take count

/-- A sink that keeps the bytes written, and refuses a text if there would be more than `limit`. -/
structure Transcript where
  bytes : Array UInt8 := #[]
  limit : Option Nat := none
  deriving DecidableEq

namespace Transcript

def accepts (transcript : Transcript) (text : List UInt8) : Bool :=
  match transcript.limit with
  | some limit => transcript.bytes.size + text.length ≤ limit
  | none => true

def write (text : List UInt8) (transcript : Transcript) : Option String × Transcript :=
  if transcript.accepts text then (none, { transcript with bytes := transcript.bytes ++ text })
  else (some "sink full", transcript)

instance : Sink Transcript where
  written transcript := transcript.bytes.toList
  write := write
  written_of_taken text transcript h := by
    unfold write at h ⊢
    split at h
    · rw [if_pos ‹_›, Array.toList_appendList]
    · cases h
  exists_written text transcript := by
    unfold write
    split
    · exact ⟨text.length, by rw [Array.toList_appendList, List.take_length]⟩
    · exact ⟨0, by rw [List.take_zero, List.append_nil]⟩

end Transcript

end StoryMachine
