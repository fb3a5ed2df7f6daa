/-!
# Random choices

Everything random is drawn from a source of 32-bit words, and nothing here depends on which source it
is. A number below a bound is drawn by rejection: as many bits as the bound has, again and again
until they are below it.

`below_lt` says that the number drawn is below the bound, whatever the source.
-/

namespace ScriptedRobot

/-- A source of 32-bit words. -/
class WordSource (σ : Type) where
  next : σ → UInt32 × σ

namespace Random

variable {σ : Type} [WordSource σ]

/-- The number of bits of a number; zero has none. -/
def bitLength (n : Nat) : Nat := if n = 0 then 0 else n.log2 + 1

def wordCount : Nat := 0x100000000

/-- Draws a number of `count` bits. A word gives its upper bits; more than 32 bits take several words,
the lowest first. -/
def bits (count : Nat) (g : σ) : Nat × σ :=
  if count = 0 then (0, g)
  else
    let (word, g) := WordSource.next g
    if count ≤ 32 then (word.toNat >>> (32 - count), g)
    else
      let (upper, g) := bits (count - 32) g
      (word.toNat + wordCount * upper, g)
termination_by count

/-- The most draws that are rejected before the last one is forced into range. -/
def attemptLimit : Nat := 4096

/-- Draws a number below `n`, rejecting at most `fuel` draws. -/
def belowWithin (n : Nat) : Nat → σ → Nat × σ
  | 0, g =>
    let (r, g) := bits (bitLength n) g
    (r % n, g)
  | fuel + 1, g =>
    let (r, g) := bits (bitLength n) g
    if r < n then (r, g) else belowWithin n fuel g

/-- Draws a number below `n`. Nothing is drawn for `n = 0`. -/
def below (n : Nat) (g : σ) : Nat × σ := if n = 0 then (0, g) else belowWithin n attemptLimit g

theorem belowWithin_lt {n : Nat} (pos : 0 < n) (fuel : Nat) (g : σ) :
    (belowWithin n fuel g).1 < n := by
  induction fuel generalizing g with
  | zero => exact Nat.mod_lt _ pos
  | succ fuel ih =>
    simp only [belowWithin]
    split
    · assumption
    · exact ih _

/-- The number drawn is below the bound. -/
theorem below_lt {n : Nat} (pos : 0 < n) (g : σ) : (below n g).1 < n := by
  have : n ≠ 0 := Nat.ne_of_gt pos
  simpa [below, this] using belowWithin_lt pos attemptLimit g

/-- Tosses a coin: is a fraction of 53 bits below one half? The upper 27 bits come from the first of
two words and decide alone. -/
def coin (g : σ) : Bool × σ :=
  let (high, g) := WordSource.next g
  let (_, g) := WordSource.next g
  (high.toNat >>> 5 < 0x4000000, g)

end Random

end ScriptedRobot
