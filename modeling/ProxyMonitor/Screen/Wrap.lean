import ProxyMonitor.Screen.Picture
/-! Lines that are broken between words where they are too long, or within a word that fills a line by
itself. Space at a break, and at the start of a text, is left out. -/
namespace ProxyMonitor.Screen.Wrap
open ProxyMonitor.Text ProxyMonitor.Text.Cluster

abbrev Clusters := List (List Char)

/-- Whether a line can be broken at a cluster. -/
def isSpace (c : List Char) : Bool :=
  c = ['\u200b'] || (c.all isBlank && c ≠ ['\u00a0'])

/-- The lines that are complete, and the line, the space and the word that come next. -/
structure State where
  done : List Clusters := []
  line : Clusters := []
  space : Clusters := []
  word : Clusters := []
  afterWord : Bool := false

namespace State

/-- The word joins its line. -/
private def joined (s : State) : State :=
  let space := if s.line.isEmpty then [] else s.space
  { s with line := s.line ++ space ++ s.word, space := [], word := [] }

/-- The space at the end of a line, as far as it would fit there. -/
private def withoutFitting : (room : Nat) → Clusters → Clusters
  | _, [] => []
  | room, c :: rest =>
    if Cluster.width c ≤ room then withoutFitting (room - Cluster.width c) rest else c :: rest

private def broken (limit : Nat) (s : State) : State :=
  { s with done := s.done ++ [s.line], line := [], space := withoutFitting (limit - totalWidth s.line) s.space }

private def append (s : State) (c : List Char) : State :=
  if isSpace c then { s with space := s.space ++ [c], afterWord := false }
  else { s with word := s.word ++ [c], afterWord := true }

def step (limit : Nat) (s : State) (c : List Char) : State :=
  let w := Cluster.width c
  if limit < w then s
  else
    let overflows := s.line.isEmpty && (limit < totalWidth s.word + w || limit < totalWidth s.space + w)
    let s := if (s.afterWord && isSpace c) || overflows then s.joined else s
    let isFull := limit ≤ totalWidth s.line ||
      (0 < w && limit ≤ totalWidth s.line + totalWidth s.space + totalWidth s.word)
    if isFull then
      let s := s.broken limit
      if isSpace c && s.space.isEmpty then s else s.append c
    else s.append c

def lines (s : State) : List Clusters :=
  let done := if s.line.isEmpty && s.word.isEmpty && !s.space.isEmpty then s.done ++ [[]] else s.done
  let last := s.line ++ (if s.line.isEmpty then [] else s.space) ++ s.word
  let all := if last.isEmpty then done else done ++ [last]
  if all.isEmpty then [[]] else all

end State

/-- The lines of a text without line breaks. -/
def lines (limit : Nat) (text : String) : List Clusters :=
  ((Row.shownClusters text).foldl (State.step limit) {}).lines

/-- The lines of a text, where a line break and the return before it are not part of a line. -/
def textLines (text : String) : List String :=
  let pieces := text.toList.splitOn '\n'
  let ended := pieces.dropLast.map fun line =>
    String.ofList (if line.getLast? = some '\r' then line.dropLast else line)
  match pieces.getLast? with
  | some [] | none => ended
  | some last => ended ++ [String.ofList last]

/-- A text over as many rows as it takes. -/
def picture (size : Size) (text : String) : Picture :=
  if size.width = 0 then []
  else (textLines text).flatMap fun line =>
    (lines size.width line).map fun clusters =>
      Row.fitted size.width ((clusters.filter (0 < Cluster.width ·)).flatMap Row.symbol)

end ProxyMonitor.Screen.Wrap
