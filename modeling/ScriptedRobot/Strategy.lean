import ScriptedRobot.Position
import ScriptedRobot.Random

/-!
# How enemies move

A strategy decides from where its enemy stands, which tiles are free and where the player is. What it
remembers from one turn to the next is part of it: a strategy answers with the tile to go to, if any,
and with itself as it will be next turn. Only the random walk draws random numbers.
-/

namespace ScriptedRobot

/-- A strategy with what it remembers. -/
inductive Strategy where
  | idle
  /-- Walks along an axis and turns back where the way is barred. -/
  | bounce (axis : Position) (positive : Bool)
  | random
  /-- Goes straight on and turns clockwise where the way is barred. -/
  | circular (turn : Int)
  /-- Winds outwards, `walked` tiles into a leg of `leg` tiles. -/
  | spiral (turn leg walked : Int)
  | chase (chasing : Bool)
  /-- Circles around the tile where it first stood. -/
  | guard (turn : Int) (postX postY : Option Int)
  deriving DecidableEq, Repr

namespace Strategy

/-- The four directions, clockwise from the right. Turns are counted around. -/
def clockwise (turn : Int) : Position :=
  if turn % 4 = 0 then ⟨1, 0⟩
  else if turn % 4 = 1 then ⟨0, 1⟩
  else if turn % 4 = 2 then ⟨-1, 0⟩
  else ⟨0, -1⟩

def nextTurn (turn : Int) : Int := (turn + 1) % 4

/-- How often the random walk looks for a free neighbour. -/
def randomAttempts : Nat := 10

/-- How far a guard goes from its post. -/
def guardRadius : Nat := 3

/-- The name of a strategy as it is shown. -/
def tag : Strategy → String
  | idle => "none"
  | bounce axis _ =>
    if axis = ⟨1, 0⟩ then "horizontal" else if axis = ⟨0, 1⟩ then "vertical" else "diagonal"
  | random => "random"
  | circular _ => "circular"
  | spiral .. => "spiral"
  | chase _ => "chase"
  | guard .. => "guard"

/-- The sense in which a bouncing strategy walks; other strategies have none. -/
def sense? : Strategy → Option Bool
  | bounce _ positive => some positive
  | _ => none

/-- A displacement along an axis. -/
def along (axis : Position) (positive : Bool) : Position :=
  if positive then axis else ⟨-axis.x, -axis.y⟩

section Next

variable (free : Position → Bool)

/-- The next step of a bouncing strategy. -/
def bounceNext (axis : Position) (positive : Bool) (here : Position) : Option Position × Strategy :=
  let forth := here + along axis positive
  let back := here + along axis (!positive)
  if free forth then (some forth, bounce axis positive)
  else if free back then (some back, bounce axis (!positive))
  else (none, bounce axis (!positive))

/-- The neighbours that the random walk chooses from. -/
def neighbours : List Position := [⟨0, 1⟩, ⟨0, -1⟩, ⟨1, 0⟩, ⟨-1, 0⟩]

/-- Looks for a free neighbour, a number of times. -/
def randomNext {σ : Type} [WordSource σ] (here : Position) : Nat → σ → Option Position × σ
  | 0, g => (none, g)
  | attempts + 1, g =>
    let (i, g) := Random.below neighbours.length g
    let target := here + (neighbours[i]?).getD ⟨0, 0⟩
    if free target then (some target, g) else randomNext here attempts g

/-- The next step of a circling strategy: straight on, else around the corner. -/
def circularNext (turn : Int) (here : Position) : Option Position × Strategy :=
  let straight := here + clockwise turn
  let corner := here + clockwise (nextTurn turn)
  if free straight then (some straight, circular turn)
  else if free corner then (some corner, circular (nextTurn turn))
  else (none, circular (nextTurn turn))

/-- The next step of a spiral. At the end of a leg it turns, and every second leg is one longer. -/
def spiralNext (turn leg walked : Int) (here : Position) : Option Position × Strategy :=
  let target := here + clockwise turn
  if !free target then (none, spiral turn leg walked)
  else if walked + 1 ≥ leg then
    let turn := nextTurn turn
    (some target, spiral turn (if turn % 2 = 0 then leg + 1 else leg) 0)
  else (some target, spiral turn leg (walked + 1))

/-- The next step of a chaser: straight at the player if that tile is free, else along one axis
towards the player, else anywhere. -/
def chaseNext (player : Option Position) (here : Position) : Option Position × Strategy :=
  match player with
  | none => (none, chase false)
  | some p =>
    let towards : Position := ⟨(p.x - here.x).sign, (p.y - here.y).sign⟩
    if towards ≠ ⟨0, 0⟩ ∧ free (here + towards) then (some (here + towards), chase true)
    else
      let others : List Position :=
        [⟨towards.x, 0⟩, ⟨0, towards.y⟩, ⟨1, 0⟩, ⟨-1, 0⟩, ⟨0, 1⟩, ⟨0, -1⟩]
      let targets := (others.filter (· ≠ ⟨0, 0⟩)).map (here + ·)
      (targets.find? free, chase false)

/-- The next step of a guard. The first time it makes the tile it stands on its post; it turns instead
of leaving the surroundings of its post. -/
def guardNext (turn : Int) (postX postY : Option Int) (here : Position) :
    Option Position × Strategy :=
  let post : Position := match postX, postY with
    | some x, some y => ⟨x, y⟩
    | _, _ => here
  let target := here + clockwise turn
  if target.distance post ≤ guardRadius ∧ free target then
    (some target, guard turn (some post.x) (some post.y))
  else (none, guard (nextTurn turn) (some post.x) (some post.y))

/-- Where a strategy goes next, and what it remembers. -/
def next {σ : Type} [WordSource σ] (s : Strategy) (player : Option Position) (here : Position)
    (g : σ) : Option Position × Strategy × σ :=
  let still (answer : Option Position × Strategy) := (answer.1, answer.2, g)
  match s with
  | idle => (none, idle, g)
  | bounce axis positive => still (bounceNext free axis positive here)
  | random =>
    let (target, g) := randomNext free here randomAttempts g
    (target, random, g)
  | circular turn => still (circularNext free turn here)
  | spiral turn leg walked => still (spiralNext free turn leg walked here)
  | chase _ => still (chaseNext free player here)
  | guard turn postX postY => still (guardNext free turn postX postY here)

end Next

end Strategy

end ScriptedRobot
