import ProxyMonitor.Screen.Frame
/-! One screen for all panels, which paint it cell by cell, one panel after another. What a panel has painted when it
crashes is wiped away before the reason is put in its place. -/
namespace ProxyMonitor.Screen

/-- A cell that is painted. -/
structure Stroke where
  row : Nat
  column : Nat
  symbol : String
deriving DecidableEq, Repr

/-- Where something stands on the screen. -/
structure Area where
  top : Nat
  left : Nat
  size : Size
deriving DecidableEq, Repr

def Area.Covers (a : Area) (row column : Nat) : Prop :=
  a.top ≤ row ∧ row < a.top + a.size.height ∧ a.left ≤ column ∧ column < a.left + a.size.width

instance (a : Area) (row column : Nat) : Decidable (a.Covers row column) := by
  unfold Area.Covers
  infer_instance

namespace Picture

/-- The symbol in a cell; around a picture there is nothing. -/
def cell (p : Picture) (row column : Nat) : String :=
  (p[row]?.getD [])[column]?.getD " "

/-- What becomes of each cell. -/
def change (p : Picture) (f : (row column : Nat) → String → String) : Picture :=
  p.mapIdx fun row cells => cells.mapIdx (f row)

def stroke (p : Picture) (s : Stroke) : Picture :=
  p.change fun row column old => if row = s.row ∧ column = s.column then s.symbol else old

def paint (p : Picture) (strokes : List Stroke) : Picture :=
  strokes.foldl stroke p

/-- Wipes an area. -/
def clear (p : Picture) (a : Area) : Picture :=
  p.change fun row column old => if a.Covers row column then " " else old

/-- Puts a picture on an area. What is there shows through where the picture is blank. -/
def lay (p : Picture) (a : Area) (q : Picture) : Picture :=
  p.change fun row column old =>
    let new := q.cell (row - a.top) (column - a.left)
    if a.Covers row column ∧ new ≠ " " then new else old

/-- Every cell of a picture that is to stand on an area. -/
def strokes (p : Picture) (a : Area) : List Stroke :=
  (List.range a.size.height).flatMap fun row =>
    (List.range a.size.width).map fun column => ⟨a.top + row, a.left + column, p.cell row column⟩

end Picture

/-- What a panel paints, all of it or as much as it comes to before it crashes. -/
structure Painting where
  strokes : List Stroke := []
  crash : Option Crash := none

/-- A panel at its place, and what it paints. -/
structure Pane where
  area : Area
  panel : Panel
  painting : Painting

/-- What a panel paints on an area. Before a crash it has painted something there. -/
def Painting.of (begun : List Stroke) (a : Area) (p : Panel) : Painting :=
  match p.drawn with
  | .ok picture => ⟨picture.strokes a, none⟩
  | .error crash => ⟨begun.filter fun s => a.Covers s.row s.column, some crash⟩

namespace Pane

/-- Lets the panel paint. After a crash there is nothing in its place but the reason. -/
def paint (p : Pane) (screen : Picture) : Logged Picture :=
  let painted := screen.paint p.painting.strokes
  match p.painting.crash with
  | none => pure painted
  | some crash => do
    .write (Panel.crashed p.panel.name crash.reason)
    return (painted.clear p.area).lay p.area (Panel.failed p.area.size crash.reason)

/-- One panel after another. -/
def paintAll : List Pane → Picture → Logged Picture
  | [], screen => pure screen
  | p :: rest, screen => do paintAll rest (← p.paint screen)

/-- The panel that paints nothing. -/
def idle (p : Pane) : Pane :=
  { p with painting := {} }

end Pane

namespace Frame
variable {α : Type} (f : Frame α)

/-- Where the panels stand, from top to bottom. -/
def areas (size : Size) : List Area :=
  match (Layout.arrange size.height 0 f.parts).map fun e => Area.mk e.start 0 ⟨size.width, e.length⟩ with
  | [top, middle, banner, facets, rest, bottom] =>
    [top, middle] ++ (f.shown.failure.map fun _ => banner).toList ++ (if f.facets.isEmpty then [] else [facets]) ++
      [rest, bottom]
  | _ => []

/-- The panels that are drawn, each as large as its place. -/
def placed (size : Size) : List Panel :=
  f.panels (((Layout.arrange size.height 0 f.parts).map Extent.length).map fun height => ⟨size.width, height⟩)

/-- The panels at their places. -/
def panes (size : Size) (begun : List Stroke) : List Pane :=
  ((f.areas size).zip (f.placed size)).map fun (a, p) => ⟨a, p, .of begun a p⟩

end Frame
end ProxyMonitor.Screen
