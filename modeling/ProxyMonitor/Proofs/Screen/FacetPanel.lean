import ProxyMonitor.Proofs.Screen.Containment
import ProxyMonitor.Record.Pool

/-! The facet panel: how many rows it has, and which facets are drawn in them. There is a line for each of the first facets,
eight at most; their count wraps at 65536. -/
namespace ProxyMonitor.Screen
open ProxyMonitor.Record

namespace Frame
variable {α : Type} (f : Frame α)

/-- The line of a facet, after some links. -/
def facetLine (links : Nat) (v : FacetView) : List String :=
  facetTitle v :: facetPieces links v.entries

/-- How many links the first facets have. -/
def linksBefore (i : Nat) : Nat :=
  ((f.facets.take i).flatMap FacetView.links).length

theorem facetLines_getElem? (links : Nat) (views : List FacetView) (i : Nat) :
    (facetLines links views)[i]? =
      views[i]?.map (facetLine (links + ((views.take i).flatMap FacetView.links).length)) := by
  induction views generalizing links i with
  | nil => rfl
  | cons v views ih =>
    cases i with
    | zero => rfl
    | succ i =>
      rw [facetLines, List.getElem?_cons_succ, ih, List.getElem?_cons_succ, List.take_succ_cons, List.flatMap_cons,
        List.length_append, Nat.add_assoc]

/-- The line of a facet depends on the facets before it, and on none after it. -/
theorem facetText_getElem? (i : Nat) : f.facetText[i]? = f.facets[i]?.map (facetLine (f.linksBefore i)) := by
  have line := facetLines_getElem? 0 f.facets i
  rwa [Nat.zero_add] at line

/-- The rows of the failure. -/
def bannerRows : Nat :=
  if f.shown.failure.isSome then 3 else 0

/-- How many facets there are lines for. -/
def shownFacets : Nat :=
  min (f.facets.length % 65536) maxFacetRows

theorem facetRows_of_some (some : f.facets ≠ []) : f.facetRows = f.shownFacets + 2 := by
  rw [facetRows, List.isEmpty_eq_false_iff.mpr some, shownFacets, UInt16.toNat_ofNat']
  rfl

theorem facetRows_eq : f.facetRows = if f.facets = [] then 0 else f.shownFacets + 2 := by
  split
  · rename_i none
    exact if_pos (List.isEmpty_iff.mpr none)
  · rename_i some
    exact f.facetRows_of_some some

theorem shownFacets_le : f.shownFacets ≤ f.facets.length :=
  (Nat.min_le_left _ _).trans (Nat.mod_le _ _)

/-- The count of the facets is right as long as it fits into 16 bits, and beyond that if enough of it is left. -/
theorem shownFacets_eq_iff :
    f.shownFacets = min f.facets.length maxFacetRows ↔
      f.facets.length < 65536 ∨ maxFacetRows ≤ f.facets.length % 65536 := by
  unfold shownFacets maxFacetRows
  omega

theorem facets_named (size : Size) : "facets" ∈ (f.placed size).map Panel.name ↔ f.facets ≠ [] := by
  rw [placed_names, ← List.isEmpty_eq_false_iff]
  cases f.facets.isEmpty <;> cases f.shown.failure <;> simp

/-- There is room for all panels. -/
def HasRoom (size : Size) : Prop :=
  (f.parts.map Part.length).sum ≤ size.height

instance (size : Size) : Decidable (f.HasRoom size) :=
  inferInstanceAs (Decidable ((f.parts.map Part.length).sum ≤ size.height))

variable {f} {size : Size} {row column : Nat}

/-- Where there is room, each panel has the rows that it asks for, below those of the panels before it. -/
theorem arranged_of_room (room : f.HasRoom size) :
    ∃ rest, Layout.arrange size.height 0 f.parts =
      [⟨0, 3⟩, ⟨3, 3⟩, ⟨6, f.bannerRows⟩, ⟨6 + f.bannerRows, f.facetRows⟩, ⟨6 + f.bannerRows + f.facetRows, rest⟩,
        ⟨6 + f.bannerRows + f.facetRows + rest, 1⟩] := by
  obtain ⟨⟨_, _⟩, ⟨_, _⟩, ⟨_, _⟩, ⟨_, _⟩, ⟨_, _⟩, ⟨_, _⟩, arranged, adjoined, _⟩ := f.arranged size
  have lengths := Layout.arrange_lengths room
  rw [arranged] at lengths ⊢
  simp only [List.map_cons, List.map_nil, parts, Layout.granted, List.cons.injEq, and_true] at lengths
  obtain ⟨rfl, rfl, rfl, rfl, rfl, rfl⟩ := lengths
  simp only [Layout.Adjoined, and_true] at adjoined
  obtain ⟨rfl, rfl, rfl, rfl, rfl, rfl⟩ := adjoined
  exact ⟨_, rfl⟩

/-- A cell of the screen belongs to the panel in whose area it is. -/
theorem draw_cell {a : Area} {p : Panel} (placed : (a, p) ∈ (f.areas size).zip (f.placed size)) (at_row : row < size.height)
    (at_column : column < size.width) (covers : a.Covers row column) :
    (f.draw size).value.cell row column = p.draw.value.cell (row - a.top) (column - a.left) := by
  obtain ⟨areas, panels, attempts⟩ := f.panes_attempts size []
  have drawn := paintAll_eq_draw areas panels (fun q hq => (attempts q hq).1) fun q hq => (attempts q hq).2
  have mem : Pane.mk a p (.of [] a p) ∈ f.panes size [] := List.mem_map_of_mem placed
  obtain ⟨attempt, bound⟩ := attempts _ mem
  rw [← drawn, Pane.paintAll_cell (Picture.blank_fills size) (fun q hq => (attempts q hq).1.inside) (panes_apart areas)
    at_row at_column mem covers, Picture.blank_cell]
  exact attempt.shows_draw (panes_fit areas panels _ mem) bound at_row at_column covers

/-- The facet panel: a frame around a line for each facet, as far as there are rows. -/
def facetPicture (f : Frame α) (size : Size) : Picture :=
  .framed size (some " Facets ") none fun inner => f.facetText.map (Row.ofPieces inner.width .left)

/-- Where the facet panel stands. -/
def facetArea (f : Frame α) (size : Size) : Area :=
  ⟨6 + f.bannerRows, 0, ⟨size.width, f.facetRows⟩⟩

theorem bottom_le (room : f.HasRoom size) : 7 + f.bannerRows + f.facetRows ≤ size.height := by
  have room : 3 + (3 + (f.bannerRows + (f.facetRows + (0 + (1 + 0))))) ≤ size.height := room
  omega

section Some
variable (room : f.HasRoom size) (some : f.facets ≠ [])
include room some

theorem facets_placed :
    (f.facetArea size, ⟨"facets", (f.facetArea size).size, .ok (f.facetPicture (f.facetArea size).size)⟩) ∈
      (f.areas size).zip (f.placed size) := by
  obtain ⟨rest, arranged⟩ := arranged_of_room room
  unfold areas placed
  rw [arranged]
  simp only [List.map_cons, List.map_nil, panels, List.isEmpty_eq_false_iff.mpr some]
  cases f.shown.failure with
  | none => exact List.mem_cons_of_mem _ (List.mem_cons_of_mem _ List.mem_cons_self)
  | some message => exact List.mem_cons_of_mem _ (List.mem_cons_of_mem _ (List.mem_cons_of_mem _ List.mem_cons_self))

/-- What is drawn in the rows of the facet panel. -/
theorem draw_facets (at_row : row < f.shownFacets + 2) (at_column : column < size.width) :
    (f.draw size).value.cell (6 + f.bannerRows + row) column =
      (f.facetPicture ⟨size.width, f.shownFacets + 2⟩).cell row column := by
  have bottom := bottom_le room
  have rows := f.facetRows_of_some some
  have inside : row < f.facetRows := rows ▸ at_row
  have covers : (f.facetArea size).Covers (6 + f.bannerRows + row) column := by
    simp only [facetArea, Area.Covers]
    omega
  have place : 6 + f.bannerRows + row - (f.facetArea size).top = row := Nat.add_sub_cancel_left _ _
  rw [draw_cell (facets_placed room some) (by omega) at_column covers, place, ← rows]
  exact Picture.fitted_cell (f.facetPicture (f.facetArea size).size) inside at_column

theorem draw_border (wide : 2 ≤ size.width) :
    ((List.range (f.shownFacets + 2)).map fun row => (f.draw size).value.cell (6 + f.bannerRows + row) 0) =
      "┌" :: List.replicate f.shownFacets "│" ++ ["└"] := by
  obtain ⟨width, at_width⟩ : ∃ width, size.width = width + 2 := ⟨size.width - 2, by omega⟩
  have drawn : ∀ row ∈ List.range (f.shownFacets + 2), (f.draw size).value.cell (6 + f.bannerRows + row) 0 =
      (f.facetPicture ⟨width + 2, f.shownFacets + 2⟩).cell row 0 := fun row mem => by
    rw [draw_facets room some (List.mem_range.mp mem) (by omega), at_width]
  rw [List.map_congr_left drawn]
  exact Picture.framed_left _ _ _ _ _

theorem draw_line {i : Nat} (lines : i < f.shownFacets) (at_column : column < size.width - 2) :
    (f.draw size).value.cell (6 + f.bannerRows + (i + 1)) (column + 1) =
      Picture.cell (f.facetText.map (Row.ofPieces (size.width - 2) .left)) i column := by
  obtain ⟨width, at_width⟩ : ∃ width, size.width = width + 2 := ⟨size.width - 2, by omega⟩
  rw [draw_facets room some (by omega) (by omega), at_width, Nat.add_sub_cancel]
  exact Picture.framed_cell _ _ _ lines (by omega)

end Some

end Frame

/-- The facet panel shows the first facets, as many of them as are left of their count in 16 bits and eight at most. However
many facets there are, and on every screen with room for all panels, the panel stands below the header, the filter and the
failure, and has two rows more than lines; without facets there is no panel, and no row for one. Its border encloses the
lines, which are those of the first facets in their order, numbered after the facets before them. These are the first eight
facets, or all if there are not so many, exactly if there are less than 65536 or eight are left. -/
theorem first_facets_shown {α : Type} (f : Frame α) {size : Size} (room : f.HasRoom size) :
    let top := 6 + f.bannerRows
    let screen := (f.draw size).value
    (Layout.arrange size.height 0 f.parts)[3]? = some ⟨top, if f.facets = [] then 0 else f.shownFacets + 2⟩ ∧
    ("facets" ∈ (f.placed size).map Panel.name ↔ f.facets ≠ []) ∧
    (f.facets ≠ [] → 2 ≤ size.width →
      ((List.range (f.shownFacets + 2)).map fun row => screen.cell (top + row) 0) =
        "┌" :: List.replicate f.shownFacets "│" ++ ["└"]) ∧
    (∀ i < f.shownFacets, ∃ v, f.facets[i]? = some v ∧ ∀ column < size.width - 2,
      screen.cell (top + (i + 1)) (column + 1) =
        ((Row.ofPieces (size.width - 2) .left (Frame.facetLine (f.linksBefore i) v))[column]?).getD " ") ∧
    (f.shownFacets = min f.facets.length Frame.maxFacetRows ↔
      f.facets.length < 65536 ∨ Frame.maxFacetRows ≤ f.facets.length % 65536) := by
  refine ⟨?_, f.facets_named size, Frame.draw_border room, ?_, f.shownFacets_eq_iff⟩
  · obtain ⟨rest, arranged⟩ := Frame.arranged_of_room room
    rw [arranged, ← f.facetRows_eq]
    rfl
  · intro i lines
    have here : i < f.facets.length := Nat.lt_of_lt_of_le lines f.shownFacets_le
    have some : f.facets ≠ [] := List.ne_nil_of_length_pos (Nat.zero_lt_of_lt here)
    refine ⟨f.facets[i], List.getElem?_eq_getElem here, fun column at_column => ?_⟩
    rw [Frame.draw_line room some lines at_column, Picture.cell, List.getElem?_map, f.facetText_getElem?,
      List.getElem?_eq_getElem here]
    rfl

namespace Crowded

def facet (name : String) : Facet :=
  ⟨name, [⟨"x", "1", "x:1"⟩, ⟨"y", "2", "y:2"⟩]⟩

def frame (facets : List Facet) : Frame PoolRecord where
  page := .pool
  input := ""
  shown := ⟨"/pool", .idle, none, { total := some 0, facets }⟩
  listing := PoolRecord.listing
  now := default

/-- Nine facets with two links each. -/
def nine : Frame PoolRecord :=
  frame (["A", "B", "C", "D", "E", "F", "G", "H", "I"].map facet)

/-- More facets than can be counted in 16 bits. -/
def many : Frame PoolRecord :=
  frame (List.replicate 65536 (facet "A"))

theorem many_facets : many.facets = List.replicate 65536 (facet "A").view := by
  have informative : (facet "A").isInformative = true := by decide
  rw [Frame.facets, Facet.views, many, frame, List.filter_replicate, if_pos informative, List.map_replicate]

theorem many_rows : many.shownFacets = 0 := by
  rw [Frame.shownFacets, many_facets, List.length_replicate]
  rfl

theorem many_some : many.facets ≠ [] := by
  rw [many_facets]
  exact nofun

end Crowded

/-- Of nine facets, the first eight are shown; the first link of the fifth one is the last with a key. -/
theorem first_facets_shown_nine :
    Crowded.nine.HasRoom ⟨80, 24⟩ ∧ (Layout.arrange 24 0 Crowded.nine.parts)[3]? = some ⟨6, 10⟩ ∧
      ∀ column < 78, (Crowded.nine.draw ⟨80, 24⟩).value.cell 11 (column + 1) =
        ((Row.ofPieces 78 .left ["E: ", "F9 ", "x (1)", "  ", "y (2)", "  "])[column]?).getD " " := by
  have room : Crowded.nine.HasRoom ⟨80, 24⟩ := by decide
  obtain ⟨place, _, _, lines, _⟩ := first_facets_shown Crowded.nine room
  obtain ⟨v, fifth, drawn⟩ := lines 4 (by decide)
  cases fifth
  exact ⟨room, place, drawn⟩

/-- There would be ten rows for the first eight facets. The panel has two, and none of the facets is shown. -/
theorem facets_miscounted :
    Crowded.many.facets.length = 65536 ∧ 3 + 3 + Crowded.many.bannerRows + (min 65536 Frame.maxFacetRows + 2) + 1 ≤ 24 ∧
      (Layout.arrange 24 0 Crowded.many.parts)[3]? = some ⟨6, 2⟩ ∧
      ((List.range 2).map fun row => (Crowded.many.draw ⟨80, 24⟩).value.cell (6 + row) 0) = ["┌", "└"] := by
  have rows := Crowded.many.facetRows_of_some Crowded.many_some
  rw [Crowded.many_rows] at rows
  have room : Crowded.many.HasRoom ⟨80, 24⟩ := by
    rw [Frame.HasRoom, Frame.parts, rows]
    decide
  have border := Frame.draw_border room Crowded.many_some (by decide)
  rw [Crowded.many_rows] at border
  refine ⟨?_, by decide, ?_, border⟩
  · rw [Crowded.many_facets, List.length_replicate]
  · rw [Frame.parts, rows]
    decide +kernel

end ProxyMonitor.Screen
