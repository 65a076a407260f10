/-!
# Random numbers

A story asks for numbers in a range, and may seed the generator or ask for a fresh start. What comes
out is left to the generator; `Dice` is one over the generator of the standard library.
-/

namespace StoryMachine

/-- A source of random numbers. -/
class Generator (G : Type) where
  /-- Starts the sequence that belongs to a seed. -/
  seed : Int → G → G
  /-- Starts a sequence that nobody can foresee. -/
  renew : G → G
  roll : Nat → G → Nat × G

/-- A random number from 1 to `range`. -/
def Generator.pick {G : Type} [Generator G] (range : Nat) (generator : G) : Nat × G :=
  let (number, generator) := Generator.roll range generator
  (number % range + 1, generator)

/-- A generator with a reading of the clock to start afresh from. -/
structure Dice where
  clock : Nat
  state : StdGen

namespace Dice

def ofClock (clock : Nat) : Dice where
  clock
  state := mkStdGen clock

instance : Generator Dice where
  seed number dice := { dice with state := mkStdGen (number % 2147483648).toNat }
  renew dice :=
    let (more, state) := stdNext dice.state
    { clock := dice.clock + more + 1, state := mkStdGen (dice.clock + more + state.s1) }
  roll _ dice :=
    let (number, state) := stdNext dice.state
    (number, { dice with state })

end Dice

end StoryMachine
