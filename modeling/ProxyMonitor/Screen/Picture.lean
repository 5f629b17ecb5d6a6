import ProxyMonitor.Text.Blank
import ProxyMonitor.Text.Cluster
/-! Pictures: rows of cells with a symbol in each. A wide symbol covers the cell after it, which is blank. -/
namespace ProxyMonitor.Screen
open ProxyMonitor.Text

abbrev Row := List String

abbrev Picture := List Row

/-- The columns and rows that there are. -/
structure Size where
  width : Nat
  height : Nat
deriving DecidableEq, Repr

namespace Row

def blank (width : Nat) : Row := List.replicate width " "

/-- As many cells as there are columns, the rest of them blank. -/
def fitted (width : Nat) (r : Row) : Row :=
  r.take width ++ blank (width - r.length)

/-- The cells of a symbol that takes up some columns. -/
def symbol (cluster : List Char) : Row :=
  String.ofList cluster :: blank (Cluster.width cluster - 1)

/-- The clusters of a text that are shown; a line break is not. -/
def shownClusters (text : String) : List (List Char) :=
  (Cluster.all text.toList).filter (· ≠ ['\n'])

/-- The clusters that stand before the first one with no room left for it. Those too wide for any row, and
those without a width, are left out. -/
def truncated (width : Nat) : (used : Nat) → List (List Char) → List (List Char)
  | _, [] => []
  | used, c :: rest =>
    let w := Cluster.width c
    if width < w then truncated width used rest
    else if width < used + w then []
    else if w = 0 then truncated width used rest
    else c :: truncated width (used + w) rest

inductive Side where
  | left | right
deriving DecidableEq, Repr

/-- A line of a paragraph: pieces of text one after another, cut on the right. -/
def ofPieces (width : Nat) (side : Side) (pieces : List String) : Row :=
  let cells := (truncated width 0 (pieces.flatMap shownClusters)).flatMap symbol
  match side with
  | .left => fitted width cells
  | .right => blank (width - cells.length) ++ cells

def ofText (width : Nat) (text : String) : Row :=
  ofPieces width .left [text]

private def attach (cells : Row) (cluster : List Char) : Row :=
  match cells.getLast? with
  | some last => cells.dropLast ++ [last ++ String.ofList cluster]
  | none => [String.ofList cluster]

/-- The cells of a label, as far as there is room. Clusters without a width join the cell before them. -/
def label (width : Nat) : (cells : Row) → (used : Nat) → List (List Char) → Row
  | cells, _, [] => cells
  | cells, used, c :: rest =>
    let w := Cluster.width c
    if width < used + w then cells
    else if !cells.isEmpty && (used = 0 || w = 0) then
      label width (attach cells c ++ blank (w - 1)) (used + w) rest
    else label width (cells ++ symbol c) (used + w) rest

def ofLabel (width : Nat) (text : String) : Row :=
  label width [] 0 (shownClusters text)

/-- The last clusters of a text that fit into the columns. -/
def ending (width : Nat) (text : String) : List (List Char) :=
  let clusters := Cluster.all text.toList
  ((List.range (clusters.length + 1)).map clusters.drop).find?
    (fun rest => Cluster.totalWidth rest ≤ width) |>.getD []

/-- Puts cells over those of a row. -/
def painted (r : Row) (start : Nat) (cells : Row) : Row :=
  r.take start ++ cells ++ r.drop (start + cells.length)

/-- A label over a row, between its first and its last cell. On the right it is cut at its start. -/
def titled (r : Row) (side : Side) (title : String) : Row :=
  let room := r.length - 2
  match side with
  | .left => r.painted 1 (ofLabel room title)
  | .right =>
    let cells := label room [] 0 (ending room title)
    r.painted (1 + (room - cells.length)) cells

/-- The text of a row, without blank space at its end. -/
def text (r : Row) : String :=
  String.ofList (trimEnd (String.join r).toList)

end Row

namespace Picture

def blank (size : Size) : Picture :=
  List.replicate size.height (Row.blank size.width)

/-- As many rows as there is room for, the rest of them blank. -/
def fitted (size : Size) (p : Picture) : Picture :=
  (p.take size.height).map (Row.fitted size.width) ++ blank ⟨size.width, size.height - p.length⟩

/-- Two pictures of one height next to each other. -/
def beside (left right : Picture) : Picture :=
  List.zipWith (· ++ ·) left right

def lines (p : Picture) : List String :=
  p.map Row.text

private def edge (width : Nat) (left middle right : String) : Row :=
  match width with
  | 0 => []
  | 1 => [left]
  | n + 2 => left :: List.replicate n middle ++ [right]

/-- What is left inside of a frame. -/
def inside (size : Size) : Size :=
  ⟨size.width - 2, size.height - 2⟩

/-- A frame around a picture, with a title on it and a note on the right. -/
def framed (size : Size) (title note : Option String) (inner : Size → Picture) : Picture :=
  let top := edge size.width "┌" "─" "┐"
  let top := note.elim top (top.titled .right)
  let top := title.elim top (top.titled .left)
  let body := (fitted (inside size) (inner (inside size))).map fun r =>
    edge size.width "│" " " "│" |>.painted 1 (r.take (size.width - 2))
  let bottom := edge size.width "└" "─" "┘"
  (top :: body ++ [bottom]).take size.height

/-- A picture above a line. -/
def underlined (size : Size) (inner : Size → Picture) : Picture :=
  let above : Size := ⟨size.width, size.height - 1⟩
  (fitted above (inner above) ++ [List.replicate size.width "─"]).take size.height

end Picture
end ProxyMonitor.Screen
