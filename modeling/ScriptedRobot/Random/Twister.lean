import ScriptedRobot.Random

/-!
# The Mersenne Twister

The source of words that seeds name: MT19937, a block of 624 words that is twisted whenever all of
it has been handed out. A seed is an integer of any size; its sign does not count, and its 32-bit
words, the lowest first, are mixed into the first block.
-/

namespace ScriptedRobot.Random

abbrev blockSize : Nat := 624

/-- How far apart the words lie that a twist brings together. -/
abbrev twistOffset : Nat := 397

abbrev Block := Vector UInt32 blockSize

/-- The word at a place, counted around the block. -/
def Block.word (b : Block) (i : Nat) : UInt32 := b.get ⟨i % blockSize, Nat.mod_lt _ (by decide)⟩

/-- The block with a word replaced, its place counted around the block. -/
def Block.write (b : Block) (i : Nat) (w : UInt32) : Block :=
  b.set (i % blockSize) w (Nat.mod_lt _ (by decide))

structure Twister where
  block : Block
  used : Nat

namespace Twister

/-- The block that a single number starts. -/
def plainBlock (seed : UInt32) : Block :=
  (List.range' 1 (blockSize - 1)).foldl (fun b i =>
    let prior := b.word (i - 1)
    b.write i ((1812433253 : UInt32) * (prior ^^^ (prior >>> 30)) + i.toUInt32)) (Vector.replicate _ seed)

/-- The 32-bit words of a number, the lowest first; zero has one. -/
def wordsOf (n : Nat) : List UInt32 :=
  if n < wordCount then [n.toUInt32] else (n % wordCount).toUInt32 :: wordsOf (n / wordCount)
termination_by n
decreasing_by
  simp only [wordCount] at *
  omega

/-- Mixes a word of the block with its neighbour in front. -/
def mixed (b : Block) (i : Nat) (factor : UInt32) : UInt32 :=
  let prior := b.word (i - 1)
  b.word i ^^^ ((prior ^^^ (prior >>> 30)) * factor)

/-- Writes the word at place `i` and moves on. The first word takes over the last one's value when
the end of the block is reached. -/
def writeOn (b : Block) (i : Nat) (w : UInt32) : Block × Nat :=
  let b := b.write i w
  if i + 1 ≥ blockSize then (b.write 0 (b.word (blockSize - 1)), 1) else (b, i + 1)

/-- Mixes the words of a key into a block, `count` times, going around both. -/
def mixKey (key : Array UInt32) (b : Block) (count : Nat) : Block × Nat :=
  let (b, i) := (List.range count).foldl (fun (b, i) step =>
    let j := step % key.size
    writeOn b i (mixed b i 1664525 + key.getD j 0 + j.toUInt32)) (b, 1)
  (b, i)

/-- The second round of mixing, once around the block. -/
def mixRound (b : Block) (i : Nat) : Block :=
  ((List.range (blockSize - 1)).foldl (fun (b, i) _ =>
    writeOn b i (mixed b i 1566083941 - i.toUInt32)) (b, i)).1

/-- The generator that a seed names. -/
def ofSeed (seed : Int) : Twister :=
  let key := (wordsOf seed.natAbs).toArray
  let (b, i) := mixKey key (plainBlock 19650218) (max blockSize key.size)
  ⟨(mixRound b i).write 0 0x80000000, blockSize⟩

/-- Replaces every word of a block in turn by a mix of three of its words. -/
def twist (b : Block) : Block :=
  (List.range blockSize).foldl (fun b i =>
    let y := (b.word i &&& 0x80000000) ||| (b.word (i + 1) &&& 0x7FFFFFFF)
    let odd : UInt32 := if y &&& 1 = 0 then 0 else 0x9908B0DF
    b.write i (b.word (i + twistOffset) ^^^ (y >>> 1) ^^^ odd)) b

/-- Spreads the bits of a word before it is handed out. -/
def temper (y : UInt32) : UInt32 :=
  let y := y ^^^ (y >>> 11)
  let y := y ^^^ ((y <<< 7) &&& 0x9D2C5680)
  let y := y ^^^ ((y <<< 15) &&& 0xEFC60000)
  y ^^^ (y >>> 18)

def next (t : Twister) : UInt32 × Twister :=
  let t := if t.used ≥ blockSize then ⟨twist t.block, 0⟩ else t
  (temper (t.block.word t.used), { t with used := t.used + 1 })

instance : WordSource Twister := ⟨next⟩

end Twister

end ScriptedRobot.Random
