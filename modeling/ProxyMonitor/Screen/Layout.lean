/-! Parts along a line. Each has the length that it asks for if there is room for all of them; what is left
over goes to a part that stretches. Where there is too little room, the parts that stand out most among
their neighbours are cut. -/
namespace ProxyMonitor.Screen

inductive Part where
  | fixed (length : Nat)
  | stretched
deriving DecidableEq, Repr

def Part.length : Part → Nat
  | .fixed length => length
  | .stretched => 0

/-- Where a part starts, and how long it is. -/
structure Extent where
  start : Nat
  length : Nat
deriving DecidableEq, Repr

namespace Layout

/-- Parts of equal length next to each other. -/
structure Plateau where
  length : Rat
  count : Nat
deriving DecidableEq, Repr

def push (length : Rat) : List Plateau → List Plateau
  | [] => [⟨length, 1⟩]
  | p :: rest => if p.length = length then ⟨length, p.count + 1⟩ :: rest else ⟨length, 1⟩ :: p :: rest

def plateaus (lengths : List Rat) : List Plateau :=
  lengths.foldr push []

def lengths (ps : List Plateau) : List Rat :=
  ps.flatMap fun p => List.replicate p.count p.length

def neighbours (ps : List Plateau) (i : Nat) : List Plateau :=
  (if i = 0 then none else ps[i - 1]?).toList ++ ps[i + 1]?.toList

def highest (ps : List Plateau) : Rat :=
  ps.foldl (fun best p => if best < p.length then p.length else best) 0

/-- A plateau that its neighbours do not reach, by how much it stands out, and how far it may be cut. -/
def peak? (ps : List Plateau) (i : Nat) (p : Plateau) : Option (Rat × Nat × Rat) :=
  let around := neighbours ps i
  if around.all (·.length < p.length) then
    some (mkRat around.length p.count, i, p.length - highest around)
  else none

def sharpest? (ps : List Plateau) : Option (Nat × Rat) :=
  ((ps.mapIdx (peak? ps)).filterMap id).foldl (fun best (rate, i, height) =>
    match best with
    | some (other, _) => if other < rate then some (rate, i, height) else best
    | none => some (rate, i, height)) none |>.map Prod.snd

/-- Takes the excess away from the lengths. Every step ends it or makes two plateaus one. -/
def cut : (fuel : Nat) → (excess : Rat) → List Rat → List Rat
  | 0, _, ls => ls
  | fuel + 1, excess, ls =>
    let ps := plateaus ls
    match sharpest? ps, decide (0 < excess) with
    | some (i, height), true =>
      let count := (ps[i]?.map Plateau.count).getD 1
      let share := excess / count
      let drop := if share < height then share else height
      cut fuel (excess - drop * count)
        (lengths (ps.mapIdx fun j p => if j = i then { p with length := p.length - drop } else p))
    | _, _ => ls

def rounded (r : Rat) : Nat :=
  (r + 1 / 2).floor.toNat

def placed (spacing : Nat) : (start : Rat) → List Rat → List Extent
  | _, [] => []
  | start, length :: rest =>
    ⟨rounded start, rounded (start + length) - rounded start⟩ :: placed spacing (start + length + spacing) rest

/-- Arranges parts on a line, with space between them. -/
def arrange (available spacing : Nat) (parts : List Part) : List Extent :=
  let room := available - spacing * (parts.length - 1)
  let wanted := (parts.map Part.length).foldl (· + ·) 0
  let sizes : List Rat :=
    if wanted ≤ room then
      parts.map fun
        | .fixed length => (length : Rat)
        | .stretched => ((room - wanted : Nat) : Rat)
    else cut (2 * parts.length) ((wanted : Rat) - room) (parts.map fun p => (p.length : Rat))
  placed spacing 0 sizes

end Layout
end ProxyMonitor.Screen
