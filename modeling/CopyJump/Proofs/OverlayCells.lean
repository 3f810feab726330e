import CopyJump.Proofs.PaintedCells

namespace CopyJump

namespace Picture

variable {p : Picture} {cols rows width height x y : Nat} {lines : List String}

theorem splitLines_of_not_mem {cs : List Char} (h : '\n' ∉ cs) : splitLines cs = [cs] := by
  induction cs with
  | nil => rfl
  | cons c cs ih =>
    rw [List.mem_cons, not_or] at h
    simp [splitLines, ih h.2, Ne.symm h.1]

def longest (lines : List String) : Nat := (lines.map String.utf8ByteSize).foldl max 0

theorem foldl_max_lt {ns : List Nat} {a b : Nat} (ha : a < b) (h : ∀ n ∈ ns, n < b) :
    ns.foldl max a < b := by
  induction ns generalizing a with
  | nil => exact ha
  | cons n ns ih =>
    rw [List.forall_mem_cons] at h
    exact ih (Nat.max_lt.mpr ⟨ha, h.1⟩) h.2

/-- The lines have no line ends, and they and their number fit into words of 16 bits. -/
structure Plain (lines : List String) : Prop where
  length_lt : lines.length < 65536
  size_lt : ∀ line ∈ lines, line.utf8ByteSize < 65536
  no_end : ∀ line ∈ lines, '\n' ∉ line.toList

theorem Plain.longest_lt (h : Plain lines) : longest lines < 65536 := by
  apply foldl_max_lt (by decide)
  simpa using h.size_lt

theorem Plain.textArea_eq (h : Plain lines) (hp : p.Sized cols rows) :
    p.textArea lines = (min (longest lines) (cols - 2), min lines.length (rows - 2)) := by
  have hlongest := h.longest_lt
  rw [longest] at *
  rw [textArea, hp.cols_eq, hp.rows_eq, Nat.mod_eq_of_lt hlongest, Nat.mod_eq_of_lt h.length_lt]

theorem Plain.flatMap_splitLines (h : Plain lines) :
    (lines.flatMap fun s ↦ splitLines s.toList) = lines.map String.toList := by
  have hno := h.no_end
  clear h
  induction lines with
  | nil => rfl
  | cons line lines ih =>
    rw [List.forall_mem_cons] at hno
    rw [List.flatMap_cons, splitLines_of_not_mem hno.1, ih hno.2]
    rfl

/-- A cell is in the text area of an overlay. -/
def Overlaid (cols rows : Nat) (lines : List String) (x y : Nat) : Prop :=
  (1 ≤ x ∧ x ≤ min (longest lines) (cols - 2)) ∧ 1 ≤ y ∧ y ≤ min lines.length (rows - 2)

instance : Decidable (Overlaid cols rows lines x y) := inferInstanceAs (Decidable (_ ∧ _))

section Columns

variable (hp : p.Sized cols rows) (hx : x < cols) (hy : y < rows)
include hp hx hy

theorem cell_foldl_columns {n : Nat} (hn : n < cols) (row : Nat) (g : Nat → Cell → Cell) :
    ((List.range n).foldl (fun p i ↦ p.modify (1 + i) row (g i)) p).cell x y =
      if (1 ≤ x ∧ x ≤ n) ∧ row = y then g (x - 1) (p.cell x y) else p.cell x y := by
  induction n with
  | zero =>
    rw [if_neg (by omega)]
    rfl
  | succ n ih =>
    have hsized : ((List.range n).foldl (fun p i ↦ p.modify (1 + i) row (g i)) p).Sized cols rows :=
      hp.foldl (fun _ _ hp ↦ hp.modify _ _ _) _
    rw [List.range_succ, List.foldl_append, List.foldl_cons, List.foldl_nil,
      cell_modify hsized hx hy (by omega), ih (Nat.lt_of_succ_lt hn)]
    -- The last column has not been changed before, and no other is changed with it.
    by_cases hlast : 1 + n = x ∧ row = y
    · obtain ⟨rfl, rfl⟩ := hlast
      rw [if_pos ⟨rfl, rfl⟩, if_neg (by omega), if_pos (by omega), Nat.add_sub_cancel_left]
    · have hbefore : ((1 ≤ x ∧ x ≤ n + 1) ∧ row = y) ↔ (1 ≤ x ∧ x ≤ n) ∧ row = y := by omega
      rw [if_neg hlast]
      simp only [hbefore]

theorem cell_foldl_rows {n : Nat} (hwidth : width < cols) (g : Nat → Nat → Cell → Cell) :
    ((List.range n).foldl (fun p j ↦
        (List.range width).foldl (fun p i ↦ p.modify (1 + i) (1 + j) (g j i)) p) p).cell x y =
      if (1 ≤ x ∧ x ≤ width) ∧ 1 ≤ y ∧ y ≤ n then g (y - 1) (x - 1) (p.cell x y)
      else p.cell x y := by
  induction n with
  | zero =>
    rw [if_neg (by omega)]
    rfl
  | succ n ih =>
    have hsized : ((List.range n).foldl (fun p j ↦
        (List.range width).foldl (fun p i ↦ p.modify (1 + i) (1 + j) (g j i)) p) p).Sized
          cols rows :=
      hp.foldl (fun _ _ hp ↦ hp.foldl (fun _ _ hp ↦ hp.modify _ _ _) _) _
    rw [List.range_succ, List.foldl_append, List.foldl_cons, List.foldl_nil,
      cell_foldl_columns hsized hx hy hwidth, ih]
    by_cases hlast : (1 ≤ x ∧ x ≤ width) ∧ 1 + n = y
    · obtain ⟨hcolumn, rfl⟩ := hlast
      rw [if_pos ⟨hcolumn, rfl⟩, if_neg (by omega), if_pos (by omega), Nat.add_sub_cancel_left]
    · have hbefore : ((1 ≤ x ∧ x ≤ width) ∧ 1 ≤ y ∧ y ≤ n + 1) ↔
          (1 ≤ x ∧ x ≤ width) ∧ 1 ≤ y ∧ y ≤ n := by omega
      rw [if_neg hlast]
      simp only [hbefore]

theorem cell_write (hlines : Plain lines) :
    (p.write lines).cell x y =
      if Overlaid cols rows lines x y then
        cover (lines.getD (y - 1) "").toList[x - 1]? (p.cell x y)
      else p.cell x y := by
  have hwidth : min (longest lines) (cols - 2) < cols := by omega
  simp only [write, hlines.textArea_eq hp, hlines.flatMap_splitLines]
  rw [cell_foldl_rows hp hx hy hwidth]
  split
  · next hin =>
    have hline : y - 1 < lines.length := by omega
    rw [if_pos (show Overlaid cols rows lines x y from hin)]
    simp [Array.getD_eq_getD_getElem?, hline]
  · next hout => rw [if_neg (show ¬Overlaid cols rows lines x y from hout)]

end Columns

theorem Sized.write (hp : p.Sized cols rows) (lines : List String) :
    (p.write lines).Sized cols rows :=
  hp.foldl (fun _ _ hp ↦ hp.foldl (fun _ _ hp ↦ hp.modify _ _ _) _) _

/-- What is assumed of the terminal library, all in one place: how its canvas scales and paints, how
its paragraph is styled and written, and how large a screen it draws on as a whole. -/
structure DrawingFacts : Prop where
  scaled (n length : Nat) : scale n length = n * (length - 1) / 255
  overwritten {p : Picture} {cols rows x y : Nat} {point : Point} (color : Rgb)
    (hp : p.Sized cols rows) (hcols : 3 ≤ cols) (hrows : 3 ≤ rows) (hpoint : point.OnFrame)
    (hx : x < cols) (hy : y < rows) (hlands : Lands cols rows x y point) :
    (paint color p point).cell x y = painted color
  unpainted {p : Picture} {cols rows x y : Nat} {point : Point} (color : Rgb)
    (hp : p.Sized cols rows) (hcols : 3 ≤ cols) (hrows : 3 ≤ rows) (hpoint : point.OnFrame)
    (hx : x < cols) (hy : y < rows) (hmisses : ¬Lands cols rows x y point) :
    (paint color p point).cell x y = p.cell x y
  styled {p : Picture} {cols rows x y : Nat} {lines : List String} (hp : p.Sized cols rows)
    (hlines : Plain lines) (hx : x < cols) (hy : y < rows)
    (hin : Overlaid cols rows lines x y) :
    ((p.write lines).cell x y).fg = .white ∧ ((p.write lines).cell x y).bg = .black ∧
      ((p.write lines).cell x y).symbol =
        (lines.getD (y - 1) "").toList.getD (x - 1) (p.cell x y).symbol
  unwritten {p : Picture} {cols rows x y : Nat} {lines : List String} (hp : p.Sized cols rows)
    (hlines : Plain lines) (hx : x < cols) (hy : y < rows)
    (hout : ¬Overlaid cols rows lines x y) : (p.write lines).cell x y = p.cell x y
  whole {cols rows : Nat} (hcells : cols * rows ≤ 65535) : drawnSize cols rows = (cols, rows)

theorem drawingFacts : DrawingFacts where
  scaled _ _ := rfl
  overwritten color hp hcols hrows hpoint hx hy hlands := by
    rw [cell_paint hp hcols hrows hx hy color hpoint, if_pos hlands]
  unpainted color hp hcols hrows hpoint hx hy hmisses := by
    rw [cell_paint hp hcols hrows hx hy color hpoint, if_neg hmisses]
  styled hp hlines hx hy hin := by
    rw [cell_write hp hx hy hlines, if_pos hin, List.getD_eq_getElem?_getD]
    exact ⟨rfl, rfl, rfl⟩
  unwritten hp hlines hx hy hout := by rw [cell_write hp hx hy hlines, if_neg hout]
  whole hcells := if_pos hcells

theorem compose_overlay (cols rows : Nat) (f : VideoFrame) (hlines : lines ≠ []) :
    compose cols rows f lines = (compose cols rows f []).write lines := by
  cases lines with
  | nil => exact absurd rfl hlines
  | cons line lines => rfl

theorem sized_compose_overlay (cols rows : Nat) (f : VideoFrame) (lines : List String) :
    (compose cols rows f lines).Sized cols rows := by
  cases lines with
  | nil => exact sized_compose cols rows f
  | cons line lines =>
    rw [compose_overlay cols rows f (List.cons_ne_nil line lines)]
    exact (sized_compose cols rows f).write _

theorem cell_compose_overlay (f : VideoFrame) (hlines : Plain lines) (hx : x < cols)
    (hy : y < rows) :
    (compose cols rows f lines).cell x y =
      if Overlaid cols rows lines x y then
        cover (lines.getD (y - 1) "").toList[x - 1]? ((compose cols rows f []).cell x y)
      else (compose cols rows f []).cell x y := by
  by_cases hempty : lines = []
  · have hout : ¬Overlaid cols rows lines x y := by
      simp only [Overlaid, hempty, List.length_nil]
      omega
    rw [if_neg hout, hempty]
  · rw [compose_overlay cols rows f hempty, cell_write (sized_compose cols rows f) hx hy hlines]

theorem symbol_compose (f : VideoFrame) (hx : x + 2 < cols) (hy : y + 2 < rows) :
    ((compose cols rows f []).cell (x + 1) (y + 1)).symbol = block ∧
        (∃ k, f.Lights cols rows x y k) ∨
      ((compose cols rows f []).cell (x + 1) (y + 1)).symbol = ' ' ∧
        ¬∃ k, f.Lights cols rows x y k := by
  rcases cell_compose f hx hy with ⟨k, hlit, -, hshown⟩ | ⟨hnone, hshown⟩
  · exact .inl ⟨congrArg Cell.symbol hshown, k, hlit⟩
  · exact .inr ⟨congrArg Cell.symbol hshown, fun ⟨k, hlit⟩ ↦ hnone k hlit⟩

theorem symbol_compose_eq_iff (f f' : VideoFrame) (hx : x + 2 < cols) (hy : y + 2 < rows) :
    ((compose cols rows f []).cell (x + 1) (y + 1)).symbol =
        ((compose cols rows f' []).cell (x + 1) (y + 1)).symbol ↔
      ((∃ k, f.Lights cols rows x y k) ↔ ∃ k, f'.Lights cols rows x y k) := by
  have hdiffer : block ≠ ' ' := by decide
  rcases symbol_compose f hx hy with ⟨hsymbol, hlit⟩ | ⟨hsymbol, hlit⟩ <;>
    rcases symbol_compose f' hx hy with ⟨hsymbol', hlit'⟩ | ⟨hsymbol', hlit'⟩ <;>
    simp only [hsymbol, hsymbol', hlit, hlit', hdiffer, hdiffer.symm, iff_true, iff_false,
      not_true_eq_false]

theorem cover_eq_cover_iff {c : Option Char} {cell cell' : Cell} :
    cover c cell = cover c cell' ↔ c.isSome ∨ cell.symbol = cell'.symbol := by
  cases c <;> simp [cover]

section Drawing

variable (hsize : drawnSize cols rows = (width, height)) (hlines : Plain lines)
include hsize hlines

theorem cell_draw_of_not_overlaid (f : VideoFrame) (hx : x < cols) (hy : y < rows)
    (hout : ¬Overlaid width height lines x y) :
    (draw cols rows f lines).cell x y = (draw cols rows f []).cell x y := by
  rw [cell_draw hsize f hx hy (sized_compose_overlay _ _ _ _),
    cell_draw hsize f hx hy (sized_compose _ _ _)]
  split
  · next hon => rw [cell_compose_overlay f hlines hon.1 hon.2, if_neg hout]
  · rfl

theorem cell_draw_eq_iff_of_overlaid (f f' : VideoFrame) (hx : x + 1 < cols) (hy : y + 1 < rows)
    (hin : Overlaid width height lines (x + 1) (y + 1)) :
    (draw cols rows f lines).cell (x + 1) (y + 1) =
        (draw cols rows f' lines).cell (x + 1) (y + 1) ↔
      x < (lines.getD y "").length ∨
        ((∃ k, f.Lights width height x y k) ↔ ∃ k, f'.Lights width height x y k) := by
  have hinside := hin
  unfold Overlaid at hinside
  have hx' : x + 2 < width := by omega
  have hy' : y + 2 < height := by omega
  have hon : x + 1 < width ∧ y + 1 < height := ⟨Nat.lt_of_succ_lt hx', Nat.lt_of_succ_lt hy'⟩
  have hcell (f : VideoFrame) : (draw cols rows f lines).cell (x + 1) (y + 1) =
      cover (lines.getD y "").toList[x]? ((compose width height f []).cell (x + 1) (y + 1)) := by
    rw [cell_draw hsize f hx hy (sized_compose_overlay _ _ _ _), if_pos hon,
      cell_compose_overlay f hlines hon.1 hon.2, if_pos hin]
    rfl
  have hreached : (lines.getD y "").toList[x]?.isSome ↔ x < (lines.getD y "").length := by
    rw [isSome_getElem?, ← String.length_toList]
  rw [hcell, hcell, cover_eq_cover_iff, symbol_compose_eq_iff f f' hx' hy', hreached]

/-- Under an overlay a cell of the text area shows nothing of the frame if its line reaches it;
past the end of the line it shows whether a pixel falls into it, and in two frames is the same
only if both have one there or neither has. The other cells are those without the overlay. -/
theorem overlay_hides_iff (f f' : VideoFrame) :
    (∀ x y, x + 1 < cols → y + 1 < rows → Overlaid width height lines (x + 1) (y + 1) →
      ((draw cols rows f lines).cell (x + 1) (y + 1) =
          (draw cols rows f' lines).cell (x + 1) (y + 1) ↔
        x < (lines.getD y "").length ∨
          ((∃ k, f.Lights width height x y k) ↔ ∃ k, f'.Lights width height x y k))) ∧
      ∀ x < cols, ∀ y < rows, ¬Overlaid width height lines x y →
        (draw cols rows f lines).cell x y = (draw cols rows f []).cell x y :=
  ⟨fun _ _ hx hy ↦ cell_draw_eq_iff_of_overlaid hsize hlines f f' hx hy,
    fun _ hx _ hy ↦ cell_draw_of_not_overlaid hsize hlines f hx hy⟩

end Drawing

theorem overlay_hides_iff_of_letters :
    drawnSize 8 5 = (8, 5) ∧ Plain ["abc", "d"] ∧
      (draw 8 5 (.uniform 0) ["abc", "d"]).cell 1 2 =
        (draw 8 5 (.uniform 215) ["abc", "d"]).cell 1 2 ∧
      (draw 8 5 (.uniform 0) ["abc", "d"]).cell 4 2 = (draw 8 5 (.uniform 0) []).cell 4 2 := by
  have hsize : drawnSize 8 5 = (8, 5) := rfl
  have hlines : Plain ["abc", "d"] := ⟨by decide, by decide, by decide⟩
  obtain ⟨hin, hout⟩ := overlay_hides_iff hsize hlines (.uniform 0) (.uniform 215)
  refine ⟨hsize, hlines, ?_, hout 4 (by decide) 2 (by decide) (by decide)⟩
  exact (hin 0 1 (by decide) (by decide) (by decide)).mpr (.inl (by decide))

theorem picture_shows_right_of_short_line :
    Plain ["abc", "d"] ∧ Overlaid 8 5 ["abc", "d"] 2 2 ∧
      (draw 8 5 (.uniform 0) ["abc", "d"]).cell 2 2 ≠
        (draw 8 5 (.uniform 215) ["abc", "d"]).cell 2 2 := by
  have hsize : drawnSize 8 5 = (8, 5) := rfl
  have hlines : Plain ["abc", "d"] := ⟨by decide, by decide, by decide⟩
  have hin : Overlaid 8 5 ["abc", "d"] (1 + 1) (1 + 1) := by decide
  -- The pixel in column 51 and row 128 of the frame falls into this cell.
  have hlit : (VideoFrame.uniform 215).Lights 8 5 1 1 215 :=
    ⟨by decide, 51, 128, VideoFrame.pixel_uniform .., by decide, by decide⟩
  refine ⟨hlines, hin, fun heq ↦ ?_⟩
  have hshort : ¬1 < (["abc", "d"].getD 1 "").length := by decide
  have hsame := (cell_draw_eq_iff_of_overlaid hsize hlines _ _ (by decide) (by decide) hin).mp heq
  obtain ⟨k, hblack, column, row, hpixel, -⟩ := (hsame.resolve_left hshort).mpr ⟨_, hlit⟩
  rw [VideoFrame.pixel_uniform] at hpixel
  rw [← hpixel] at hblack
  exact absurd hblack (by decide)

end Picture

end CopyJump
