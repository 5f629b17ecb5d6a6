import ProxyMonitor.Proofs.Screen.Arrangement
import ProxyMonitor.Proofs.Screen.Cells
import ProxyMonitor.Record.Pool

/-! A panel that crashes damages only itself. Panels paint nothing but their areas, the areas have no cell in common, and
what a panel painted before its crash is wiped away. -/
namespace ProxyMonitor

instance : LawfulMonad Logged :=
  LawfulMonad.mk' Logged
    (fun x => congrArg (Logged.mk x.value) (List.append_nil x.entries))
    (fun _ _ => rfl)
    (fun _ _ _ => congrArg (Logged.mk _) (List.append_assoc _ _ _))

namespace Screen

/-- No cell belongs to both areas. -/
def Area.Apart (a b : Area) : Prop :=
  ∀ row column, a.Covers row column → ¬ b.Covers row column

namespace Picture
variable {p : Picture} {size : Size} {strokes : List Stroke} {row column : Nat}

/-- What is in a cell after the strokes. -/
def written (strokes : List Stroke) (row column : Nat) (old : String) : String :=
  strokes.foldl (fun old s => if row = s.row ∧ column = s.column then s.symbol else old) old

theorem paint_fills (fills : p.Fills size) (strokes : List Stroke) : (p.paint strokes).Fills size := by
  induction strokes generalizing p with
  | nil => exact fills
  | cons s rest ih => exact ih (stroke_fills fills s)

theorem paint_cell (fills : p.Fills size) (at_row : row < size.height) (at_column : column < size.width) :
    (p.paint strokes).cell row column = written strokes row column (p.cell row column) := by
  induction strokes generalizing p with
  | nil => rfl
  | cons s rest ih =>
    refine (ih (stroke_fills fills s)).trans ?_
    rw [stroke_cell fills at_row at_column]
    rfl

theorem written_eq {symbol old : String}
    (same : ∀ s ∈ strokes, row = s.row ∧ column = s.column → s.symbol = symbol)
    (some : old = symbol ∨ ∃ s ∈ strokes, row = s.row ∧ column = s.column) : written strokes row column old = symbol := by
  induction strokes generalizing old with
  | nil => exact some.resolve_right nofun
  | cons s rest ih =>
    obtain ⟨here, later⟩ := List.forall_mem_cons.mp same
    rw [written, List.foldl_cons]
    split
    · rename_i hit
      exact ih later (.inl (here hit))
    · rename_i missed
      refine ih later (some.imp_right fun ⟨t, mem, hit⟩ => ?_)
      rcases List.mem_cons.mp mem with rfl | mem
      · exact absurd hit missed
      · exact ⟨t, mem, hit⟩

theorem mem_strokes {q : Picture} {a : Area} {s : Stroke} :
    s ∈ q.strokes a ↔ a.Covers s.row s.column ∧ s.symbol = q.cell (s.row - a.top) (s.column - a.left) := by
  obtain ⟨row, column, symbol⟩ := s
  simp only [strokes, List.mem_flatMap, List.mem_map, List.mem_range, Stroke.mk.injEq, Area.Covers]
  constructor
  · rintro ⟨y, hy, x, hx, rfl, rfl, rfl⟩
    refine ⟨by omega, ?_⟩
    rw [Nat.add_sub_cancel_left, Nat.add_sub_cancel_left]
  · rintro ⟨_, rfl⟩
    exact ⟨row - a.top, by omega, column - a.left, by omega, by omega, by omega, rfl⟩

/-- The strokes of a picture are the picture, whatever was there. -/
theorem written_strokes {q : Picture} {a : Area} (covers : a.Covers row column) (old : String) :
    written (q.strokes a) row column old = q.cell (row - a.top) (column - a.left) := by
  let own : Stroke := ⟨row, column, q.cell (row - a.top) (column - a.left)⟩
  have own_mem : own ∈ q.strokes a := mem_strokes.mpr ⟨covers, rfl⟩
  refine written_eq (fun s mem hit => ?_) (.inr ⟨own, own_mem, rfl, rfl⟩)
  obtain ⟨rfl, rfl⟩ := hit
  exact (mem_strokes.mp mem).2

theorem written_outside {a : Area} (inside : ∀ s ∈ strokes, a.Covers s.row s.column) (outside : ¬ a.Covers row column)
    (old : String) : written strokes row column old = old := by
  induction strokes generalizing old with
  | nil => rfl
  | cons s rest ih =>
    obtain ⟨here, later⟩ := List.forall_mem_cons.mp inside
    have missed : ¬ (row = s.row ∧ column = s.column) := by
      rintro ⟨rfl, rfl⟩
      exact outside here
    rw [written, List.foldl_cons, if_neg missed]
    exact ih later old

end Picture

namespace Pane
open Picture
variable {p q : Pane} {panes : List Pane} {screen : Picture} {size : Size} {row column : Nat}

/-- The panel paints no cell but its own. -/
def Inside (p : Pane) : Prop :=
  ∀ s ∈ p.painting.strokes, p.area.Covers s.row s.column

/-- What is in a cell of its area once the panel has painted. -/
def shows (p : Pane) (row column : Nat) (old : String) : String :=
  match p.painting.crash with
  | none => written p.painting.strokes row column old
  | some crash => (Panel.failed p.area.size crash.reason).cell (row - p.area.top) (column - p.area.left)

theorem paint_fills (fills : screen.Fills size) (p : Pane) : (p.paint screen).value.Fills size := by
  have painted := Picture.paint_fills fills p.painting.strokes
  unfold paint
  dsimp only
  split
  · exact painted
  · exact lay_fills (clear_fills painted _) _ _

/-- A panel paints its area, and only that. -/
theorem paint_cell (fills : screen.Fills size) (inside : p.Inside) (at_row : row < size.height)
    (at_column : column < size.width) :
    (p.paint screen).value.cell row column =
      if p.area.Covers row column then p.shows row column (screen.cell row column) else screen.cell row column := by
  have painted := Picture.paint_fills fills p.painting.strokes
  unfold paint shows
  cases p.painting.crash with
  | none =>
    refine (Picture.paint_cell fills at_row at_column).trans ?_
    split
    · rfl
    · rename_i outside
      exact written_outside inside outside _
  | some crash =>
    have wiped := clear_cell painted at_row at_column p.area
    have reason := lay_cell (clear_fills painted p.area) at_row at_column p.area
      (Panel.failed p.area.size crash.reason) fun covered => wiped.trans (if_pos covered)
    refine reason.trans ?_
    split
    · rfl
    · rename_i outside
      rw [wiped, if_neg outside, Picture.paint_cell fills at_row at_column]
      exact written_outside inside outside _

theorem paintAll_fills (fills : screen.Fills size) (panes : List Pane) : (paintAll panes screen).value.Fills size := by
  induction panes generalizing screen with
  | nil => exact fills
  | cons p rest ih => exact ih (paint_fills fills p)

/-- A cell in no area stays as it is. -/
theorem paintAll_outside (fills : screen.Fills size) (inside : ∀ p ∈ panes, p.Inside) (at_row : row < size.height)
    (at_column : column < size.width) (outside : ∀ p ∈ panes, ¬ p.area.Covers row column) :
    (paintAll panes screen).value.cell row column = screen.cell row column := by
  induction panes generalizing screen with
  | nil => rfl
  | cons p rest ih =>
    obtain ⟨first, later⟩ := List.forall_mem_cons.mp inside
    obtain ⟨here, there⟩ := List.forall_mem_cons.mp outside
    have kept := paint_cell fills first at_row at_column
    rw [if_neg here] at kept
    exact (ih (paint_fills fills p) later there).trans kept

/-- A cell in the area of one panel is as that panel paints it. -/
theorem paintAll_cell (fills : screen.Fills size) (inside : ∀ p ∈ panes, p.Inside)
    (apart : panes.Pairwise fun p q => p.area.Apart q.area) (at_row : row < size.height) (at_column : column < size.width)
    (mem : p ∈ panes) (covers : p.area.Covers row column) :
    (paintAll panes screen).value.cell row column = p.shows row column (screen.cell row column) := by
  induction panes generalizing screen with
  | nil => cases mem
  | cons q rest ih =>
    obtain ⟨first, later⟩ := List.forall_mem_cons.mp inside
    obtain ⟨others, apart⟩ := List.pairwise_cons.mp apart
    have painted := paint_cell fills first at_row at_column
    rcases List.mem_cons.mp mem with rfl | mem
    · -- The panels after it have other cells.
      rw [if_pos covers] at painted
      have outside : ∀ q ∈ rest, ¬ q.area.Covers row column := fun q hq => others q hq row column covers
      exact (paintAll_outside (paint_fills fills p) later at_row at_column outside).trans painted
    · rw [if_neg fun covered => others p mem row column covered covers] at painted
      refine (ih (paint_fills fills q) later apart mem).trans ?_
      rw [painted]

/-- Outside of its area it does not matter what a panel paints. -/
theorem paintAll_idle {before after : List Pane} (fills : screen.Fills size)
    (inside : ∀ q ∈ before ++ p :: after, q.Inside)
    (apart : (before ++ p :: after).Pairwise fun p q => p.area.Apart q.area) (at_row : row < size.height)
    (at_column : column < size.width) (outside : ¬ p.area.Covers row column) :
    (paintAll (before ++ p :: after) screen).value.cell row column =
      (paintAll (before ++ p.idle :: after) screen).value.cell row column := by
  have inside' : ∀ q ∈ before ++ p.idle :: after, q.Inside := by
    rw [List.forall_mem_append, List.forall_mem_cons] at inside ⊢
    exact ⟨inside.1, nofun, inside.2.2⟩
  have apart' : (before ++ p.idle :: after).Pairwise fun p q => p.area.Apart q.area := by
    rw [← List.pairwise_map (f := Pane.area)] at apart ⊢
    rwa [List.map_append, List.map_cons] at apart ⊢
  by_cases covered : ∃ q ∈ before ++ after, q.area.Covers row column
  · obtain ⟨q, mem, covers⟩ := covered
    have among (r : Pane) : q ∈ before ++ r :: after := by
      rw [List.mem_append] at mem ⊢
      exact mem.imp_right (List.mem_cons_of_mem r)
    rw [paintAll_cell fills inside apart at_row at_column (among p) covers,
      paintAll_cell fills inside' apart' at_row at_column (among p.idle) covers]
  · have none (r : Pane) (area : r.area = p.area) : ∀ q ∈ before ++ r :: after, ¬ q.area.Covers row column := by
      intro q mem covers
      rw [List.mem_append, List.mem_cons] at mem
      rcases mem with first | rfl | last
      · exact covered ⟨q, List.mem_append_left after first, covers⟩
      · exact outside (area ▸ covers)
      · exact covered ⟨q, List.mem_append_right before last, covers⟩
    rw [paintAll_outside fills inside at_row at_column (none p rfl),
      paintAll_outside fills inside' at_row at_column (none p.idle rfl)]

end Pane

namespace Area
variable {width top : Nat} {areas : List Area}

/-- Areas of one width, one right below the other. -/
def Stacked (width : Nat) : (top : Nat) → List Area → Prop
  | _, [] => True
  | top, a :: rest => a = ⟨top, 0, ⟨width, a.size.height⟩⟩ ∧ Stacked width (top + a.size.height) rest

theorem Stacked.below (stacked : Stacked width top areas) : ∀ a ∈ areas, top ≤ a.top := by
  induction areas generalizing top with
  | nil => exact nofun
  | cons a rest ih =>
    obtain ⟨here, there⟩ := stacked
    refine List.forall_mem_cons.mpr ⟨by rw [here], fun b hb => ?_⟩
    have := ih there b hb
    omega

theorem Stacked.apart (stacked : Stacked width top areas) : areas.Pairwise Apart := by
  induction areas generalizing top with
  | nil => exact .nil
  | cons a rest ih =>
    obtain ⟨here, there⟩ := stacked
    refine List.pairwise_cons.mpr ⟨fun b hb row column covers covered => ?_, ih there⟩
    have above : top + a.size.height ≤ b.top := there.below b hb
    have a_top : a.top = top := by rw [here]
    have last : row < a.top + a.size.height := covers.2.1
    have first : b.top ≤ row := covered.1
    omega

end Area

namespace Frame
variable {α : Type} (f : Frame α) (size : Size)

/-- Six extents, one after the other. There is no room for what is not shown. -/
theorem arranged :
    ∃ top middle banner facets rest bottom,
      Layout.arrange size.height 0 f.parts = [top, middle, banner, facets, rest, bottom] ∧
      Layout.Adjoined 0 [top, middle, banner, facets, rest, bottom] ∧
      (f.shown.failure = none → banner.length = 0) ∧ (f.facets.isEmpty = true → facets.length = 0) := by
  obtain ⟨adjoined, count, none⟩ := Layout.arrange_adjoined size.height f.parts
  generalize Layout.arrange size.height 0 f.parts = extents at adjoined count none
  obtain ⟨top, middle, banner, facets, rest, bottom, rfl⟩ :
      ∃ top middle banner facets rest bottom, extents = [top, middle, banner, facets, rest, bottom] :=
    match extents, count with
    | [_, _, _, _, _, _], _ => ⟨_, _, _, _, _, _, rfl⟩
  refine ⟨top, middle, banner, facets, rest, bottom, rfl, adjoined, fun h => ?_, fun h => ?_⟩
  · obtain ⟨e, at_two, zero⟩ := none 2 (by simp [parts, h])
    cases at_two
    exact zero
  · obtain ⟨e, at_three, zero⟩ := none 3 (by simp [parts, facetRows, h])
    cases at_three
    exact zero

theorem areas_stacked : Area.Stacked size.width 0 (f.areas size) := by
  obtain ⟨top, middle, banner, facets, rest, bottom, arranged, adjoined, unfailed, unfaceted⟩ := f.arranged size
  simp only [Layout.Adjoined, and_true] at adjoined
  unfold areas
  rw [arranged]
  cases failed : f.shown.failure <;> cases faceted : f.facets.isEmpty <;> simp [Area.Stacked, *]

theorem placed_sizes : (f.placed size).map Panel.size = (f.areas size).map Area.size := by
  obtain ⟨top, middle, banner, facets, rest, bottom, arranged, _⟩ := f.arranged size
  unfold areas placed
  rw [arranged]
  simp only [List.map_cons, List.map_nil, panels]
  cases f.shown.failure <;> cases f.facets.isEmpty <;> rfl

/-- The panels that there are. -/
theorem placed_names : (f.placed size).map Panel.name =
    ["header", "filter"] ++ (f.shown.failure.map fun _ => "failure").toList ++
      (if f.facets.isEmpty then [] else ["facets"]) ++ ["records", "keys"] := by
  obtain ⟨top, middle, banner, facets, rest, bottom, arranged, _⟩ := f.arranged size
  unfold placed
  rw [arranged]
  simp only [List.map_cons, List.map_nil, panels]
  cases f.shown.failure <;> cases f.facets.isEmpty <;> rfl

variable {f size} {p : Panel}

/-- All panels but the header have their pictures. -/
theorem placed_cases (mem : p ∈ f.placed size) :
    (p.name = "header" ∧ ∃ top, p.drawn = f.header top) ∨ (p.name ≠ "header" ∧ ∃ picture, p.drawn = .ok picture) := by
  obtain ⟨top, middle, banner, facets, rest, bottom, arranged, _⟩ := f.arranged size
  unfold placed at mem
  rw [arranged] at mem
  simp only [List.map_cons, List.map_nil, panels, List.mem_append, List.mem_cons, List.not_mem_nil, or_false] at mem
  rcases mem with (((rfl | rfl) | failed) | faceted) | rfl | rfl
  · exact .inl ⟨rfl, _, rfl⟩
  · exact .inr ⟨by simp, _, rfl⟩
  · obtain ⟨message, _, rfl⟩ := Option.map_eq_some_iff.mp (Option.mem_toList.mp failed)
    exact .inr ⟨by simp, _, rfl⟩
  · split at faceted
    · cases faceted
    · obtain rfl := List.mem_singleton.mp faceted
      exact .inr ⟨by simp, _, rfl⟩
  · exact .inr ⟨by simp, _, rfl⟩
  · exact .inr ⟨by simp, _, rfl⟩

theorem header_overflow {o : Record.Overflow} (overflow : f.status = .error o) (size : Size) :
    f.header size = .error (.ofOverflow o) := by
  unfold header
  rw [overflow]
  rfl

/-- The header crashes where the summary overflows. -/
theorem placed_header {o : Record.Overflow} (overflow : f.status = .error o) (mem : p ∈ f.placed size)
    (header : p.name = "header") : p.drawn = .error (.ofOverflow o) := by
  obtain ⟨_, top, drawn⟩ := (placed_cases mem).resolve_right fun other => other.1 header
  rw [drawn, header_overflow overflow]

end Frame

namespace Panel
variable {panels : List Panel}

theorem failed_length (size : Size) (reason : String) : (failed size reason).length = size.height :=
  Picture.framed_length size _ _ _

theorem draw_length (p : Panel) : p.draw.value.length = p.size.height := by
  unfold draw
  split
  · exact Picture.fitted_length p.size _
  · exact failed_length p.size _

theorem mapM_draw (panels : List Panel) :
    panels.mapM draw = ⟨panels.map fun p => p.draw.value, panels.flatMap fun p => p.draw.entries⟩ := by
  induction panels with
  | nil => rfl
  | cons p rest ih =>
    rw [List.mapM_cons, ih]
    exact congrArg (Logged.mk _) (congrArg (p.draw.entries ++ ·) (List.append_nil _))

end Panel

namespace Pane
open Picture
variable {panes : List Pane} {size : Size} {top row column : Nat}

/-- The pictures of the panels, one below the other. -/
def stack (panes : List Pane) : Picture :=
  (panes.map fun p => p.panel.draw.value).flatten

theorem stack_cell (stacked : Area.Stacked size.width top (panes.map area)) (fit : ∀ p ∈ panes, p.panel.size = p.area.size)
    (below : top ≤ row) (at_column : column < size.width) :
    (∀ p ∈ panes, p.area.Covers row column →
      (stack panes).cell (row - top) column = p.panel.draw.value.cell (row - p.area.top) (column - p.area.left)) ∧
    ((∀ p ∈ panes, ¬ p.area.Covers row column) → (stack panes).cell (row - top) column = " ") := by
  induction panes generalizing top with
  | nil => exact ⟨nofun, fun _ => rfl⟩
  | cons q rest ih =>
    obtain ⟨here, there⟩ := stacked
    obtain ⟨first, later⟩ := List.forall_mem_cons.mp fit
    have height : q.panel.draw.value.length = q.area.size.height := by rw [Panel.draw_length, first]
    have q_top : q.area.top = top := by rw [here]
    have q_left : q.area.left = 0 := by rw [here]
    have q_width : q.area.size.width = size.width := by rw [here]
    -- A row is in the first picture exactly if it is in the first area.
    have covers : q.area.Covers row column ↔ row - top < q.area.size.height := by
      unfold Area.Covers
      omega
    have next : stack (q :: rest) = q.panel.draw.value ++ stack rest := rfl
    rw [next, append_cell, height]
    by_cases covered : row - top < q.area.size.height
    · rw [if_pos covered]
      refine ⟨fun p mem hit => ?_, fun none => absurd (covers.mpr covered) (none q List.mem_cons_self)⟩
      rcases List.mem_cons.mp mem with rfl | mem
      · rw [q_top, q_left, Nat.sub_zero]
      · have apart := there.below p.area (List.mem_map_of_mem mem)
        have := hit.1
        omega
    · rw [if_neg covered]
      obtain ⟨shown, empty⟩ := ih there later (by omega)
      rw [Nat.sub_sub]
      refine ⟨fun p mem hit => ?_, fun none => empty fun p mem => none p (List.mem_cons_of_mem q mem)⟩
      rcases List.mem_cons.mp mem with rfl | mem
      · exact absurd (covers.mp hit) covered
      · exact shown p mem hit

/-- What a panel may come to paint: its picture and nothing else, or anything in its area until it crashes. The keys are
drawn without a guard. -/
structure Attempts (size : Size) (p : Pane) : Prop where
  inside : p.Inside
  whole : p.painting.crash = none → ∃ picture, p.panel.drawn = .ok picture ∧
    ∀ row < size.height, ∀ column < size.width, p.area.Covers row column →
      ((blank size).paint p.painting.strokes).cell row column = picture.cell (row - p.area.top) (column - p.area.left)
  guarded : p.panel.name = "keys" → p.painting.crash = none

variable {p : Pane}

/-- What a panel paints is an attempt. -/
theorem attempts_of (size : Size) (begun : List Stroke) (a : Area) (panel : Panel)
    (unbroken : panel.name = "keys" → ∃ picture, panel.drawn = .ok picture) :
    Attempts size ⟨a, panel, .of begun a panel⟩ ∧
      ∀ crash, (Painting.of begun a panel).crash = some crash → panel.drawn = .error crash := by
  cases drawn : panel.drawn with
  | ok picture =>
    have painting : Painting.of begun a panel = ⟨picture.strokes a, none⟩ := by rw [Painting.of, drawn]
    rw [painting]
    refine ⟨⟨fun s hs => (mem_strokes.mp hs).1, fun _ => ⟨picture, drawn, ?_⟩, fun _ => rfl⟩, nofun⟩
    intro row at_row column at_column covers
    rw [Picture.paint_cell (blank_fills size) at_row at_column]
    exact written_strokes covers _
  | error crash =>
    have painting : Painting.of begun a panel =
        ⟨begun.filter fun s => a.Covers s.row s.column, some crash⟩ := by rw [Painting.of, drawn]
    rw [painting]
    refine ⟨⟨fun s hs => of_decide_eq_true (List.mem_filter.mp hs).2, nofun, fun keys => ?_⟩, fun other crashed => ?_⟩
    · obtain ⟨picture, drawn'⟩ := unbroken keys
      rw [drawn] at drawn'
      cases drawn'
    · cases crashed
      rfl

theorem Attempts.shows (attempts : p.Attempts size) {picture : Picture} (done : p.painting.crash = none)
    (drawn : p.panel.drawn = .ok picture) (at_row : row < size.height) (at_column : column < size.width)
    (covers : p.area.Covers row column) :
    p.shows row column " " = picture.cell (row - p.area.top) (column - p.area.left) := by
  obtain ⟨_, drawn', painted⟩ := attempts.whole done
  rw [drawn] at drawn'
  cases drawn'
  rw [Pane.shows, done, ← painted row at_row column at_column covers,
    Picture.paint_cell (blank_fills size) at_row at_column, blank_cell]

/-- A panel that crashes only as it is bound to shows what is drawn for it. -/
theorem Attempts.shows_draw (attempts : p.Attempts size) (fit : p.panel.size = p.area.size)
    (bound : ∀ crash, p.painting.crash = some crash → p.panel.drawn = .error crash) (at_row : row < size.height)
    (at_column : column < size.width) (covers : p.area.Covers row column) :
    p.shows row column " " = p.panel.draw.value.cell (row - p.area.top) (column - p.area.left) := by
  cases done : p.painting.crash with
  | none =>
    obtain ⟨picture, drawn, _⟩ := attempts.whole done
    have ⟨_, _, _, _⟩ := covers
    rw [attempts.shows done drawn at_row at_column covers, Panel.draw, drawn]
    exact (fitted_cell picture (by rw [fit]; omega) (by rw [fit]; omega)).symm
  | some crash =>
    rw [Pane.shows, done, Panel.draw, bound crash done, fit]
    rfl

/-- What it says in the log is what is said there of a panel that is drawn. -/
theorem Attempts.entries (attempts : p.Attempts size)
    (bound : ∀ crash, p.painting.crash = some crash → p.panel.drawn = .error crash) (screen : Picture) :
    (p.paint screen).entries = p.panel.draw.entries := by
  cases done : p.painting.crash with
  | none =>
    obtain ⟨picture, drawn, _⟩ := attempts.whole done
    rw [paint, done, Panel.draw, drawn]
    rfl
  | some crash =>
    rw [paint, done, Panel.draw, bound crash done]
    rfl

theorem paintAll_entries (attempts : ∀ p ∈ panes, p.Attempts size)
    (bound : ∀ p ∈ panes, ∀ crash, p.painting.crash = some crash → p.panel.drawn = .error crash) (screen : Picture) :
    (paintAll panes screen).entries = panes.flatMap fun p => p.panel.draw.entries := by
  induction panes generalizing screen with
  | nil => rfl
  | cons p rest ih =>
    obtain ⟨first, later⟩ := List.forall_mem_cons.mp attempts
    obtain ⟨here, there⟩ := List.forall_mem_cons.mp bound
    rw [paintAll, Logged.entries_bind, first.entries here, ih later there, List.flatMap_cons]

end Pane

namespace Frame
variable {α : Type} {f : Frame α} {size : Size} {panes : List Pane}

section Painted
variable (areas : panes.map Pane.area = f.areas size) (panels : panes.map Pane.panel = f.placed size)
include areas

theorem panes_apart : panes.Pairwise fun p q => p.area.Apart q.area := by
  have apart := (f.areas_stacked size).apart
  rw [← areas] at apart
  exact List.pairwise_map.mp apart

include panels

theorem panes_fit : ∀ p ∈ panes, p.panel.size = p.area.size := by
  have sizes := f.placed_sizes size
  rw [← areas, ← panels, List.map_map, List.map_map] at sizes
  exact List.map_inj_left.mp sizes

/-- The screen that is drawn is the one that the panels paint. -/
theorem paintAll_eq_draw (attempts : ∀ p ∈ panes, p.Attempts size)
    (bound : ∀ p ∈ panes, ∀ crash, p.painting.crash = some crash → p.panel.drawn = .error crash) :
    Pane.paintAll panes (.blank size) = f.draw size := by
  have drawn : f.draw size = ⟨(Pane.stack panes).fitted size, panes.flatMap fun p => p.panel.draw.entries⟩ := by
    have all : Panel.drawAll (f.placed size) = ⟨Pane.stack panes, panes.flatMap fun p => p.panel.draw.entries⟩ := by
      rw [Panel.drawAll, Panel.mapM_draw, ← panels, List.map_map, List.flatMap_map]
      exact congrArg (Logged.mk _) (List.append_nil _)
    have draw : f.draw size = Panel.drawAll (f.placed size) >>= fun picture => pure (picture.fitted size) := rfl
    rw [draw, all]
    exact congrArg (Logged.mk _) (List.append_nil _)
  have value : (Pane.paintAll panes (.blank size)).value = (Pane.stack panes).fitted size := by
    refine (Pane.paintAll_fills (Picture.blank_fills size) panes).ext (Picture.fitted_fills size _) ?_
    intro row at_row column at_column
    have stacked := f.areas_stacked size
    rw [← areas] at stacked
    have fit := panes_fit areas panels
    obtain ⟨shown, empty⟩ := Pane.stack_cell stacked fit (Nat.zero_le row) at_column
    have inside : ∀ p ∈ panes, p.Inside := fun p hp => (attempts p hp).inside
    have blank := Picture.blank_fills size
    rw [Picture.fitted_cell _ at_row at_column, ← Nat.sub_zero row]
    by_cases covered : ∃ p ∈ panes, p.area.Covers row column
    · obtain ⟨p, mem, covers⟩ := covered
      rw [shown p mem covers, Nat.sub_zero, Pane.paintAll_cell blank inside (panes_apart areas) at_row at_column mem covers,
        Picture.blank_cell, (attempts p mem).shows_draw (fit p mem) (bound p mem) at_row at_column covers]
    · have outside : ∀ p ∈ panes, ¬ p.area.Covers row column := fun p hp covers => covered ⟨p, hp, covers⟩
      rw [empty outside, Nat.sub_zero, Pane.paintAll_outside blank inside at_row at_column outside, Picture.blank_cell]
  rw [drawn, ← value, ← Pane.paintAll_entries attempts bound (.blank size)]

end Painted

/-- The panels at their places are an attempt at the screen, whatever was begun before a crash. -/
theorem panes_attempts (f : Frame α) (size : Size) (begun : List Stroke) :
    (f.panes size begun).map Pane.area = f.areas size ∧ (f.panes size begun).map Pane.panel = f.placed size ∧
    ∀ p ∈ f.panes size begun, p.Attempts size ∧ ∀ crash, p.painting.crash = some crash → p.panel.drawn = .error crash := by
  have count : (f.placed size).length = (f.areas size).length := by
    have sizes := congrArg List.length (f.placed_sizes size)
    rwa [List.length_map, List.length_map] at sizes
  refine ⟨?_, ?_, ?_⟩
  · rw [panes, List.map_map]
    exact List.map_fst_zip count.ge
  · rw [panes, List.map_map]
    exact List.map_snd_zip count.le
  · unfold panes
    rw [List.forall_mem_map]
    rintro ⟨a, panel⟩ mem
    refine Pane.attempts_of size begun a panel fun keys => ?_
    rcases placed_cases (List.of_mem_zip mem).2 with ⟨header, _⟩ | ⟨_, drawn⟩
    · rw [header] at keys
      exact absurd keys (by decide)
    · exact drawn

end Frame

/-- A panel that crashes damages only itself. However large the screen is and whatever there is to show, the screen is
complete, and the panels are the header, the filter, the failure and the facets where there are some, the records and the
keys. Each may crash at any point but the keys; in the area of one that does there is its reason and nothing of what it had
painted, and every other cell is as if it had painted nothing. The ones that do not crash, later or earlier, are in their
areas as they are drawn. The header crashes where its summary overflows; and with no crashes but that one, this is the
screen that is drawn, and what is logged about it. -/
theorem crash_contained {α : Type} (f : Frame α) (size : Size) {panes : List Pane}
    (areas : panes.map Pane.area = f.areas size) (panels : panes.map Pane.panel = f.placed size)
    (attempts : ∀ p ∈ panes, p.Attempts size) :
    let screen := (Pane.paintAll panes (.blank size)).value
    screen.Fills size ∧
    (panes.map fun p => p.panel.name) =
      ["header", "filter"] ++ (f.shown.failure.map fun _ => "failure").toList ++
        (if f.facets.isEmpty then [] else ["facets"]) ++ ["records", "keys"] ∧
    (∀ before p after crash, panes = before ++ p :: after → p.painting.crash = some crash →
      ∀ row < size.height, ∀ column < size.width,
        screen.cell row column =
          if p.area.Covers row column then
            (Panel.failed p.area.size crash.reason).cell (row - p.area.top) (column - p.area.left)
          else (Pane.paintAll (before ++ p.idle :: after) (.blank size)).value.cell row column) ∧
    (∀ p ∈ panes, ∀ picture, p.painting.crash = none → p.panel.drawn = .ok picture →
      ∀ row < size.height, ∀ column < size.width, p.area.Covers row column →
        screen.cell row column = picture.cell (row - p.area.top) (column - p.area.left)) ∧
    (∀ o, f.status = .error o → ∀ p ∈ panes, p.panel.name = "header" →
      p.panel.drawn = .error (.ofOverflow o) ∧ ∃ crash, p.painting.crash = some crash) ∧
    ((∀ p ∈ panes, ∀ crash, p.painting.crash = some crash → p.panel.drawn = .error crash) →
      Pane.paintAll panes (.blank size) = f.draw size) := by
  have blank := Picture.blank_fills size
  have apart := Frame.panes_apart areas
  have inside : ∀ p ∈ panes, p.Inside := fun p hp => (attempts p hp).inside
  refine ⟨Pane.paintAll_fills blank panes, ?_, ?_, ?_, ?_, Frame.paintAll_eq_draw areas panels attempts⟩
  · have names := f.placed_names size
    rwa [← panels, List.map_map] at names
  · rintro before p after crash rfl crashed row at_row column at_column
    split
    · rename_i covers
      rw [Pane.paintAll_cell blank inside apart at_row at_column List.mem_append_cons_self covers, Pane.shows, crashed]
    · rename_i outside
      exact Pane.paintAll_idle blank inside apart at_row at_column outside
  · intro p mem picture done drawn row at_row column at_column covers
    rw [Pane.paintAll_cell blank inside apart at_row at_column mem covers, Picture.blank_cell,
      (attempts p mem).shows done drawn at_row at_column covers]
  · intro o overflow p mem header
    have drawn := Frame.placed_header overflow (panels ▸ List.mem_map_of_mem mem) header
    refine ⟨drawn, ?_⟩
    cases done : p.painting.crash with
    | some crash => exact ⟨crash, rfl⟩
    | none =>
      obtain ⟨picture, drawn', _⟩ := (attempts p mem).whole done
      rw [drawn] at drawn'
      cases drawn'

namespace Overflowing

/-- Two proxies that were offered too often for one sum. -/
def frame : Frame PoolRecord where
  page := .pool
  input := ""
  shown := ⟨"/pool", .idle, none, { total := some 2, records := [{ offered := 0xffffffffffffffff }, { offered := 1 }] }⟩
  listing := PoolRecord.listing
  now := default

theorem overflow : frame.status = .error .sum := by
  rfl

def screen : Size := ⟨80, 24⟩

/-- A part of the pages, which are drawn before the header crashes. -/
def tabs : List Stroke :=
  [⟨0, 1, "H"⟩, ⟨0, 2, "i"⟩, ⟨0, 3, "s"⟩]

/-- The header as far as it comes. -/
def header : Pane :=
  ⟨⟨0, 0, ⟨80, 3⟩⟩, ⟨"header", ⟨80, 3⟩, .error (.ofOverflow .sum)⟩, ⟨tabs, some (.ofOverflow .sum)⟩⟩

theorem arranged : Layout.arrange 24 0 frame.parts = [⟨0, 3⟩, ⟨3, 3⟩, ⟨6, 0⟩, ⟨6, 0⟩, ⟨6, 17⟩, ⟨23, 1⟩] := by
  decide +kernel

theorem panes_header : ∃ rest, frame.panes screen tabs = header :: rest := by
  have drawn := Frame.header_overflow overflow ⟨80, 3⟩
  unfold Frame.panes Frame.areas Frame.placed screen
  rw [arranged]
  simp only [List.map_cons, List.map_nil, Frame.panels, drawn, List.cons_append, List.zip_cons_cons]
  exact ⟨_, rfl⟩

end Overflowing

/-- The pages are gone that were drawn before the header crashed, and all other panels are there. -/
theorem crash_contained_overflowing :
    ∃ rest, Overflowing.frame.panes Overflowing.screen Overflowing.tabs = Overflowing.header :: rest ∧
      ∀ row < 24, ∀ column < 80,
        (Overflowing.frame.draw Overflowing.screen).value.cell row column =
          if row < 3 then (Panel.failed ⟨80, 3⟩ "attempt to add with overflow").cell row column
          else (Pane.paintAll (Overflowing.header.idle :: rest) (.blank Overflowing.screen)).value.cell row column := by
  obtain ⟨rest, panes⟩ := Overflowing.panes_header
  obtain ⟨areas, panels, attempts⟩ := Overflowing.frame.panes_attempts Overflowing.screen Overflowing.tabs
  obtain ⟨_, _, contained, _, _, drawn⟩ :=
    crash_contained Overflowing.frame Overflowing.screen areas panels fun p hp => (attempts p hp).1
  refine ⟨rest, panes, fun row at_row column at_column => ?_⟩
  have covers : Overflowing.header.area.Covers row column ↔ row < 3 := by
    simp only [Overflowing.header, Area.Covers]
    omega
  rw [← drawn fun p hp => (attempts p hp).2, contained [] _ rest _ panes rfl row at_row column at_column]
  simp only [covers]
  rfl

end Screen
end ProxyMonitor
