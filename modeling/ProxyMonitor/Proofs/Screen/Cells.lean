import ProxyMonitor.Screen.Canvas

/-! Pictures by their cells: a picture of a size is known when every cell is. -/
namespace ProxyMonitor.Screen

/-- The rows and columns are as many as they should be. -/
structure Picture.Fills (p : Picture) (size : Size) : Prop where
  rows : p.length = size.height
  columns : ∀ r ∈ p, r.length = size.width

namespace Row

theorem fitted_length (width : Nat) (r : Row) : (r.fitted width).length = width := by
  simp only [fitted, blank, List.length_append, List.length_take, List.length_replicate]
  omega

theorem fitted_cell {width column : Nat} (h : column < width) (r : Row) :
    ((r.fitted width)[column]?).getD " " = (r[column]?).getD " " := by
  unfold fitted blank
  by_cases inside : column < r.length
  · rw [List.getElem?_append_left (by rw [List.length_take]; omega), List.getElem?_take_of_lt h]
  · rw [List.getElem?_append_right (by rw [List.length_take]; omega), List.getElem?_replicate,
      List.getElem?_eq_none (Nat.le_of_not_lt inside)]
    split <;> rfl

theorem painted_before {r cells : Row} {start i : Nat} (before : i < start) (inside : i < r.length) :
    (r.painted start cells)[i]? = r[i]? := by
  rw [painted, List.append_assoc, List.getElem?_append_left (by rw [List.length_take]; omega),
    List.getElem?_take_of_lt before]

theorem painted_cells {r cells : Row} {start i : Nat} (inside : start ≤ r.length) (here : i < cells.length) :
    (r.painted start cells)[start + i]? = cells[i]? := by
  have front : (r.take start).length = start := List.length_take_of_le inside
  rw [painted, List.append_assoc, List.getElem?_append_right (by omega), front, Nat.add_sub_cancel_left,
    List.getElem?_append_left here]

/-- A title leaves the corner as it is. -/
theorem titled_corner {r : Row} (some : 0 < r.length) (side : Side) (title : String) : (r.titled side title)[0]? = r[0]? := by
  unfold titled
  cases side with
  | left => exact painted_before Nat.one_pos some
  | right => exact painted_before (Nat.add_pos_left Nat.one_pos _) some

end Row

namespace Picture
variable {p q : Picture} {size : Size} {width height row column : Nat}

theorem cell_getElem (inside : row < p.length) (wide : column < p[row].length) : p.cell row column = p[row][column] := by
  rw [cell, List.getElem?_eq_getElem inside, Option.getD_some, List.getElem?_eq_getElem wide, Option.getD_some]

theorem Fills.ext (hp : p.Fills size) (hq : q.Fills size)
    (same : ∀ row < size.height, ∀ column < size.width, p.cell row column = q.cell row column) : p = q := by
  refine List.ext_getElem (hp.rows.trans hq.rows.symm) fun row inside inside' => ?_
  have width := hp.columns p[row] (List.getElem_mem inside)
  have width' := hq.columns q[row] (List.getElem_mem inside')
  refine List.ext_getElem (width.trans width'.symm) fun column wide wide' => ?_
  rw [← cell_getElem inside wide, ← cell_getElem inside' wide']
  exact same row (hp.rows ▸ inside) column (width ▸ wide)

theorem blank_fills (size : Size) : (blank size).Fills size where
  rows := List.length_replicate
  columns r hr := by
    rw [List.eq_of_mem_replicate hr]
    exact List.length_replicate

theorem blank_cell (size : Size) (row column : Nat) : (blank size).cell row column = " " := by
  unfold cell blank Row.blank
  rw [List.getElem?_replicate]
  split
  · rw [Option.getD_some, List.getElem?_replicate]
    split <;> rfl
  · rfl

theorem change_fills (fills : p.Fills size) (f : Nat → Nat → String → String) : (p.change f).Fills size where
  rows := List.length_mapIdx.trans fills.rows
  columns r hr := by
    obtain ⟨i, inside, rfl⟩ := List.mem_mapIdx.mp hr
    exact List.length_mapIdx.trans (fills.columns _ (List.getElem_mem inside))

theorem change_cell (fills : p.Fills size) (f : Nat → Nat → String → String) (at_row : row < size.height)
    (at_column : column < size.width) : (p.change f).cell row column = f row column (p.cell row column) := by
  have inside : row < p.length := by rw [fills.rows]; exact at_row
  have wide : column < p[row].length := by
    rw [fills.columns p[row] (List.getElem_mem inside)]
    exact at_column
  rw [cell_getElem inside wide, cell, change, List.getElem?_mapIdx, List.getElem?_eq_getElem inside, Option.map_some,
    Option.getD_some, List.getElem?_mapIdx, List.getElem?_eq_getElem wide]
  rfl

section Painted
variable (fills : p.Fills size) (at_row : row < size.height) (at_column : column < size.width)
include fills

theorem stroke_fills (s : Stroke) : (p.stroke s).Fills size :=
  change_fills fills _

theorem clear_fills (a : Area) : (p.clear a).Fills size :=
  change_fills fills _

theorem lay_fills (a : Area) (q : Picture) : (p.lay a q).Fills size :=
  change_fills fills _

include at_row at_column

theorem stroke_cell (s : Stroke) :
    (p.stroke s).cell row column = if row = s.row ∧ column = s.column then s.symbol else p.cell row column :=
  change_cell fills _ at_row at_column

theorem clear_cell (a : Area) : (p.clear a).cell row column = if a.Covers row column then " " else p.cell row column :=
  change_cell fills _ at_row at_column

/-- A picture is seen as it is where the area is blank. -/
theorem lay_cell (a : Area) (q : Picture) (blank : a.Covers row column → p.cell row column = " ") :
    (p.lay a q).cell row column =
      if a.Covers row column then q.cell (row - a.top) (column - a.left) else p.cell row column := by
  refine (change_cell fills _ at_row at_column).trans ?_
  dsimp only
  split
  · rename_i shown
    rw [if_pos shown.1]
  · rename_i hidden
    split
    · -- What shows through is as blank as the picture.
      rename_i covered
      rw [blank covered]
      exact Decidable.byContradiction fun seen => hidden ⟨covered, fun h => seen h.symm⟩
    · rfl

end Painted

theorem append_cell (p q : Picture) (row column : Nat) :
    (p ++ q).cell row column = if row < p.length then p.cell row column else q.cell (row - p.length) column := by
  unfold cell
  rw [List.getElem?_append]
  split <;> rfl

theorem fitted_length (size : Size) (p : Picture) : (p.fitted size).length = size.height := by
  simp only [fitted, blank, List.length_append, List.length_map, List.length_take, List.length_replicate]
  omega

theorem fitted_fills (size : Size) (p : Picture) : (p.fitted size).Fills size where
  rows := fitted_length size p
  columns r hr := by
    rcases List.mem_append.mp hr with shown | added
    · obtain ⟨r, _, rfl⟩ := List.mem_map.mp shown
      exact Row.fitted_length size.width r
    · exact (blank_fills ⟨size.width, size.height - p.length⟩).columns r added

theorem fitted_cell (p : Picture) (at_row : row < size.height) (at_column : column < size.width) :
    (p.fitted size).cell row column = p.cell row column := by
  rw [fitted, append_cell, List.length_map, List.length_take]
  split
  · rename_i shown
    have inside : row < p.length := by omega
    unfold cell
    rw [List.getElem?_map, List.getElem?_take_of_lt at_row, List.getElem?_eq_getElem inside]
    exact Row.fitted_cell at_column p[row]
  · rename_i added
    have beyond : p.length ≤ row := by omega
    rw [blank_cell, cell, List.getElem?_eq_none beyond]
    rfl

theorem framed_length (size : Size) (title note : Option String) (inner : Size → Picture) :
    (framed size title note inner).length = size.height := by
  unfold framed
  simp only [List.length_take, List.length_append, List.length_cons, List.length_map, List.length_nil, fitted_length, inside]
  omega

/-- The rows of a frame: its top with a title and a note on it, the rows of the picture between borders, and its bottom. -/
theorem framed_rows (width height : Nat) (title note : Option String) (inner : Size → Picture) :
    ∃ top : Row, top[0]? = some "┌" ∧
      framed ⟨width + 2, height⟩ title note inner =
        (top :: ((fitted ⟨width, height - 2⟩ (inner ⟨width, height - 2⟩)).map fun r =>
          Row.painted ("│" :: List.replicate width " " ++ ["│"]) 1 (r.take width)) ++
          ["└" :: List.replicate width "─" ++ ["┘"]]).take height := by
  let plain : Row := "┌" :: List.replicate width "─" ++ ["┐"]
  let noted := note.elim plain (plain.titled .right)
  let top := title.elim noted (noted.titled .left)
  have corner : noted[0]? = some "┌" := by
    cases note with
    | none => rfl
    | some note => exact Row.titled_corner (r := plain) (Nat.succ_pos _) .right note
  refine ⟨top, ?_, rfl⟩
  cases title with
  | none => exact corner
  | some title =>
    obtain ⟨inside, _⟩ := List.getElem?_eq_some_iff.mp corner
    exact (Row.titled_corner inside .left title).trans corner

/-- A frame has the picture inside. -/
theorem framed_cell (title note : Option String) (inner : Size → Picture) (at_row : row < height) (at_column : column < width) :
    (framed ⟨width + 2, height + 2⟩ title note inner).cell (row + 1) (column + 1) =
      (inner ⟨width, height⟩).cell row column := by
  obtain ⟨top, _, rows⟩ := framed_rows width (height + 2) title note inner
  have fills : (fitted ⟨width, height⟩ (inner ⟨width, height⟩)).Fills ⟨width, height⟩ := fitted_fills _ _
  have same : (fitted ⟨width, height⟩ (inner ⟨width, height⟩)).cell row column = (inner ⟨width, height⟩).cell row column :=
    fitted_cell _ at_row at_column
  rw [← same]
  rw [Nat.add_sub_cancel] at rows
  generalize fitted ⟨width, height⟩ (inner ⟨width, height⟩) = shown at rows fills
  have inside : row < shown.length := by
    rw [fills.rows]
    exact at_row
  have whole : shown[row].length = width := fills.columns _ (List.getElem_mem inside)
  have cells : shown[row].take width = shown[row] := List.take_of_length_le (Nat.le_of_eq whole)
  have here : column < shown[row].length := by omega
  rw [rows, cell, cell, List.getElem?_take_of_lt (by omega), List.cons_append, List.getElem?_cons_succ,
    List.getElem?_append_left (by rw [List.length_map]; exact inside), List.getElem?_map,
    List.getElem?_eq_getElem inside, Option.map_some, Option.getD_some, Option.getD_some, cells, Nat.add_comm column,
    Row.painted_cells (by simp) here]

theorem map_range_cell (p : Picture) (column : Nat) :
    ((List.range p.length).map fun row => p.cell row column) = p.map fun r => r[column]?.getD " " := by
  refine List.ext_getElem (by simp) fun row inside _ => ?_
  rw [List.length_map, List.length_range] at inside
  simp [cell, inside]

/-- The left border goes from corner to corner. -/
theorem framed_left (width height : Nat) (title note : Option String) (inner : Size → Picture) :
    ((List.range (height + 2)).map fun row => (framed ⟨width + 2, height + 2⟩ title note inner).cell row 0) =
      "┌" :: List.replicate height "│" ++ ["└"] := by
  obtain ⟨top, corner, rows⟩ := framed_rows width (height + 2) title note inner
  have count : (framed ⟨width + 2, height + 2⟩ title note inner).length = height + 2 := framed_length _ _ _ _
  have shown : (fitted ⟨width, height⟩ (inner ⟨width, height⟩)).length = height := fitted_length _ _
  rw [Nat.add_sub_cancel] at rows
  have whole := map_range_cell (framed ⟨width + 2, height + 2⟩ title note inner) 0
  rw [count] at whole
  have sides : ((fitted ⟨width, height⟩ (inner ⟨width, height⟩)).map fun r =>
      ((Row.painted ("│" :: List.replicate width " " ++ ["│"]) 1 (r.take width))[0]?).getD " ") = List.replicate height "│" :=
    List.eq_replicate_iff.mpr ⟨by rw [List.length_map, shown], List.forall_mem_map.mpr fun _ _ => rfl⟩
  rw [whole, rows, List.take_of_length_le (by simp [shown]), List.cons_append, List.map_cons, List.map_append, List.map_map,
    corner]
  exact congrArg (fun sides => "┌" :: (sides ++ ["└"])) sides

end Picture
end ProxyMonitor.Screen
