import CopyJump.Picture
import CopyJump.Proofs.ColourGroups

namespace CopyJump

/-- A pixel of a palette index that is not black falls into a cell of a screen, counted inside the
border. -/
def VideoFrame.Lights (f : VideoFrame) (cols rows x y : Nat) (index : UInt8) : Prop :=
  (1 ≤ index.toNat ∧ index.toNat ≤ 215) ∧
    ∃ column row : UInt8, f.pixel column row = index ∧
      column.toNat * (cols - 3) / 255 = x ∧ row.toNat * (rows - 3) / 255 = y

def VideoFrame.uniform (index : UInt8) : VideoFrame :=
  ⟨⟨Array.replicate videoSize index⟩, Array.size_replicate⟩

@[simp] theorem VideoFrame.pixel_uniform (index column row : UInt8) :
    (uniform index).pixel column row = index := Array.getElem_replicate _

def Point.OnFrame (point : Point) : Prop :=
  ∃ column row : UInt8, point = ⟨column.toNat, -row.toNat⟩

namespace Picture

structure Sized (p : Picture) (cols rows : Nat) : Prop where
  cols_eq : p.cols = cols
  rows_eq : p.rows = rows
  size_eq : p.cells.size = cols * rows

variable {p : Picture} {cols rows x y : Nat}

theorem offset_lt (hx : x < cols) (hy : y < rows) : y * cols + x < cols * rows := by
  have h := Nat.mul_le_mul_left cols hy
  rw [Nat.mul_succ, Nat.mul_comm cols y] at h
  omega

theorem offset_inj {x' y' : Nat} (hx : x < cols) (hx' : x' < cols) :
    y' * cols + x' = y * cols + x ↔ x' = x ∧ y' = y := by
  constructor
  · intro h
    have hmod := congrArg (· % cols) h
    have hdiv := congrArg (· / cols) h
    have hpos : 0 < cols := by omega
    simp only [Nat.mul_add_mod_self_right, Nat.mod_eq_of_lt hx, Nat.mod_eq_of_lt hx'] at hmod
    simp only [Nat.mul_comm _ cols, Nat.mul_add_div hpos, Nat.div_eq_of_lt hx,
      Nat.div_eq_of_lt hx', Nat.add_zero] at hdiv
    exact ⟨hmod, hdiv⟩
  · rintro ⟨rfl, rfl⟩
    rfl

theorem sized_ofCells (cols rows : Nat) (g : Nat → Nat → Cell) :
    (ofCells cols rows g).Sized cols rows := ⟨rfl, rfl, by simp [ofCells]⟩

theorem cell_ofCells (g : Nat → Nat → Cell) (hx : x < cols) (hy : y < rows) :
    (ofCells cols rows g).cell x y = g x y := by
  have hpos : 0 < cols := by omega
  have hdiv : (y * cols + x) / cols = y := by
    rw [Nat.mul_comm, Nat.mul_add_div hpos, Nat.div_eq_of_lt hx, Nat.add_zero]
  simp [cell, ofCells, Array.getD_eq_getD_getElem?, offset_lt hx hy, hdiv, Nat.mod_eq_of_lt hx]

theorem Sized.modify (hp : p.Sized cols rows) (x y : Nat) (g : Cell → Cell) :
    (p.modify x y g).Sized cols rows :=
  ⟨hp.cols_eq, hp.rows_eq, by simp [Picture.modify, hp.size_eq]⟩

theorem cell_modify (hp : p.Sized cols rows) (hx : x < cols) (hy : y < rows) {x' : Nat}
    (hx' : x' < cols) (y' : Nat) (g : Cell → Cell) :
    (p.modify x' y' g).cell x y = if x' = x ∧ y' = y then g (p.cell x y) else p.cell x y := by
  have hlt : y * cols + x < p.cells.size := by
    rw [hp.size_eq]
    exact offset_lt hx hy
  simp only [cell, Picture.modify, hp.cols_eq, Array.getD_eq_getD_getElem?, Array.getElem?_modify,
    offset_inj hx hx']
  split
  · next h =>
    obtain ⟨rfl, rfl⟩ := h
    simp [hlt]
  · rfl

theorem Sized.foldl {α : Type} {g : Picture → α → Picture}
    (hg : ∀ p a, p.Sized cols rows → (g p a).Sized cols rows) (hp : p.Sized cols rows)
    (as : List α) : (as.foldl g p).Sized cols rows := by
  induction as generalizing p with
  | nil => exact hp
  | cons a as ih => exact ih (hg p a hp)

theorem scale_lt {n length : Nat} (hn : n ≤ 255) (hlength : 0 < length) :
    scale n length < length := by
  have hle : n * (length - 1) ≤ 255 * (length - 1) := Nat.mul_le_mul_right _ hn
  have hdiv : scale n length ≤ length - 1 := Nat.div_le_of_le_mul hle
  omega

def Lands (cols rows x y : Nat) (point : Point) : Prop :=
  1 + scale point.x.toNat (cols - 2) = x ∧ 1 + scale (-point.y).toNat (rows - 2) = y

instance (cols rows x y : Nat) : DecidablePred (Lands cols rows x y) :=
  fun _ ↦ inferInstanceAs (Decidable (_ ∧ _))

def Inside (cols rows x y : Nat) : Prop := (1 ≤ x ∧ x + 1 < cols) ∧ 1 ≤ y ∧ y + 1 < rows

theorem Lands.inside {point : Point} (h : Lands cols rows x y point) (hcols : 3 ≤ cols)
    (hrows : 3 ≤ rows) (hpoint : point.OnFrame) : Inside cols rows x y := by
  obtain ⟨column, row, rfl⟩ := hpoint
  obtain ⟨rfl, rfl⟩ := h
  have hcolumn := column.toNat_lt
  have hrow := row.toNat_lt
  have hx : scale (column.toNat : Int).toNat (cols - 2) < cols - 2 :=
    scale_lt (by simp; omega) (by omega)
  have hy : scale (- -(row.toNat : Int)).toNat (rows - 2) < rows - 2 :=
    scale_lt (by simp; omega) (by omega)
  dsimp only [Inside]
  omega

def painted (color : Rgb) : Cell := ⟨block, .rgb color, .plain⟩

theorem Sized.paint (hp : p.Sized cols rows) (color : Rgb) (point : Point) :
    (paint color p point).Sized cols rows := hp.modify _ _ _

section Painting

variable (hp : p.Sized cols rows) (hcols : 3 ≤ cols) (hrows : 3 ≤ rows) (hx : x < cols)
  (hy : y < rows)
include hp hcols hrows hx hy

theorem cell_paint (color : Rgb) {point : Point} (hpoint : point.OnFrame) :
    (paint color p point).cell x y =
      if Lands cols rows x y point then painted color else p.cell x y := by
  have hinside := Lands.inside ⟨rfl, rfl⟩ hcols hrows hpoint
  have hlt : 1 + scale point.x.toNat (cols - 2) < cols := by
    unfold Inside at hinside
    omega
  rw [paint, hp.cols_eq, hp.rows_eq]
  exact cell_modify hp hx hy hlt _ _

theorem cell_foldl_paint (color : Rgb) {points : List Point}
    (hpoints : ∀ point ∈ points, point.OnFrame) :
    (points.foldl (paint color) p).cell x y =
      if ∃ point ∈ points, Lands cols rows x y point then painted color else p.cell x y := by
  induction points generalizing p with
  | nil => simp
  | cons point points ih =>
    rw [List.forall_mem_cons] at hpoints
    rw [List.foldl_cons, ih (hp.paint color point) hpoints.2,
      cell_paint hp hcols hrows hx hy color hpoints.1]
    by_cases hrest : ∃ point ∈ points, Lands cols rows x y point
    · simp [hrest]
    · simp [hrest]

end Painting

theorem lands_point_iff {column row : UInt8} :
    Lands cols rows (x + 1) (y + 1) ⟨column.toNat, -row.toNat⟩ ↔
      column.toNat * (cols - 3) / 255 = x ∧ row.toNat * (rows - 3) / 255 = y := by
  simp only [Lands, scale, Int.neg_neg, Int.toNat_natCast, Nat.sub_sub, Nat.reduceAdd,
    Nat.add_comm 1, Nat.add_right_cancel_iff]

end Picture

namespace VideoFrame

open Picture

variable {f : VideoFrame} {cols rows x y : Nat}

theorem onFrame_of_mem_places {i : Nat} : ∀ point ∈ f.places i, point.OnFrame := by
  intro point hpoint
  obtain ⟨column, row, -, -, rfl⟩ := mem_places.mp hpoint
  exact ⟨column, row, rfl⟩

theorem lights_iff {i : Nat} (hi : i < Palette.size) :
    f.Lights cols rows x y i.toUInt8 ↔
      ∃ point ∈ f.places i, Lands cols rows (x + 1) (y + 1) point := by
  have hindex : i.toUInt8.toNat = i := UInt8.toNat_ofNat_of_lt' (Nat.lt_trans hi (by decide))
  constructor
  · rintro ⟨hcolour, column, row, hpixel, hlands⟩
    refine ⟨⟨column.toNat, -row.toNat⟩, mem_places.mpr ⟨column, row, ?_, ?_, rfl⟩,
      lands_point_iff.mpr hlands⟩
    · rwa [hpixel]
    · rw [hpixel, hindex]
  · rintro ⟨point, hpoint, hlands⟩
    obtain ⟨column, row, hcolour, hpixel, rfl⟩ := mem_places.mp hpoint
    have heq : f.pixel column row = i.toUInt8 := by rw [← UInt8.toNat_inj, hpixel, hindex]
    rw [heq] at hcolour
    exact ⟨hcolour, column, row, heq, lands_point_iff.mp hlands⟩

end VideoFrame

namespace Picture

variable {p : Picture} {f : VideoFrame} {cols rows width height x y : Nat}

def paintBelow (f : VideoFrame) (p : Picture) (n : Nat) : Picture :=
  (List.range n).foldl (fun p i ↦ (f.places i).foldl (paint (Palette.rgb i.toUInt8)) p) p

theorem paintAll_points (p : Picture) (f : VideoFrame) :
    p.paintAll f.points = p.paintBelow f Palette.size := by
  rw [paintAll, VideoFrame.points_eq, List.foldl_map, VideoFrame.groupIndices, List.foldl_filter,
    paintBelow]
  refine congrArg (fun step ↦ (List.range Palette.size).foldl step p) ?_
  funext p i
  split
  · rfl
  · next hempty =>
    rw [Bool.not_eq_true, Bool.not_eq_false', List.isEmpty_iff] at hempty
    rw [hempty]
    rfl

theorem paintBelow_succ (p : Picture) (f : VideoFrame) (n : Nat) :
    p.paintBelow f (n + 1) =
      (f.places n).foldl (paint (Palette.rgb n.toUInt8)) (p.paintBelow f n) := by
  simp only [paintBelow, List.range_succ, List.foldl_append, List.foldl_cons, List.foldl_nil]

theorem sized_paintBelow (hp : p.Sized cols rows) (f : VideoFrame) (n : Nat) :
    (p.paintBelow f n).Sized cols rows :=
  hp.foldl (fun _ _ hp ↦ hp.foldl (fun _ point hp ↦ hp.paint _ point) _) _

section Painting

variable (hp : p.Sized cols rows) (hcols : 3 ≤ cols) (hrows : 3 ≤ rows)
include hp hcols hrows

theorem cell_paintBelow (f : VideoFrame) (hx : x + 1 < cols) (hy : y + 1 < rows) {n : Nat}
    (hn : n ≤ Palette.size) :
    (∃ k < n, f.Lights cols rows x y k.toUInt8 ∧
        (∀ j < n, f.Lights cols rows x y j.toUInt8 → j ≤ k) ∧
        (p.paintBelow f n).cell (x + 1) (y + 1) = painted (Palette.rgb k.toUInt8)) ∨
      ((∀ j < n, ¬f.Lights cols rows x y j.toUInt8) ∧
        (p.paintBelow f n).cell (x + 1) (y + 1) = p.cell (x + 1) (y + 1)) := by
  induction n with
  | zero => exact .inr ⟨fun j hj ↦ absurd hj (Nat.not_lt_zero j), rfl⟩
  | succ n ih =>
    have hlights := @VideoFrame.lights_iff f cols rows x y n hn
    rw [paintBelow_succ, cell_foldl_paint (sized_paintBelow hp f n) hcols hrows hx hy _
      f.onFrame_of_mem_places]
    -- Index `n` is painted over the lower ones, which are seen only where it lights nothing.
    by_cases hn' : f.Lights cols rows x y n.toUInt8
    · rw [if_pos (hlights.mp hn')]
      exact .inl ⟨n, Nat.lt_succ_self n, hn', fun j hj _ ↦ Nat.le_of_lt_succ hj, rfl⟩
    · rw [if_neg (mt hlights.mpr hn')]
      have hbelow {j : Nat} (hj : j < n + 1) (hlit : f.Lights cols rows x y j.toUInt8) : j < n := by
        refine Nat.lt_of_le_of_ne (Nat.le_of_lt_succ hj) ?_
        rintro rfl
        exact hn' hlit
      rcases ih (Nat.le_of_succ_le hn) with ⟨k, hk, hlit, hhighest, hshown⟩ | ⟨hnone, hshown⟩
      · exact .inl ⟨k, Nat.lt_succ_of_lt hk, hlit,
          fun j hj hj' ↦ hhighest j (hbelow hj hj') hj', hshown⟩
      · exact .inr ⟨fun j hj hj' ↦ hnone j (hbelow hj hj') hj', hshown⟩

theorem cell_paintBelow_of_outside (f : VideoFrame) (hx : x < cols) (hy : y < rows)
    (hout : ¬Inside cols rows x y) (n : Nat) : (p.paintBelow f n).cell x y = p.cell x y := by
  induction n with
  | zero => rfl
  | succ n ih =>
    rw [paintBelow_succ, cell_foldl_paint (sized_paintBelow hp f n) hcols hrows hx hy _
      f.onFrame_of_mem_places, if_neg, ih]
    rintro ⟨point, hpoint, hlands⟩
    exact hout (hlands.inside hcols hrows (f.onFrame_of_mem_places point hpoint))

end Painting

theorem sized_border (cols rows : Nat) : (border cols rows).Sized cols rows := sized_ofCells _ _ _

theorem compose_eq (cols rows : Nat) (f : VideoFrame) :
    compose cols rows f [] = (border cols rows).paintBelow f Palette.size := by
  simp [compose, paintAll_points]

theorem sized_compose (cols rows : Nat) (f : VideoFrame) :
    (compose cols rows f []).Sized cols rows := by
  rw [compose_eq]
  exact sized_paintBelow (sized_border _ _) f _

theorem cell_compose_of_outside (hcols : 3 ≤ cols) (hrows : 3 ≤ rows) (f : VideoFrame)
    (hx : x < cols) (hy : y < rows) (hout : ¬Inside cols rows x y) :
    (compose cols rows f []).cell x y = ⟨rim cols rows x y, .plain, .black⟩ := by
  rw [compose_eq, cell_paintBelow_of_outside (sized_border _ _) hcols hrows f hx hy hout]
  exact cell_ofCells _ hx hy

theorem rim_of_inside (h : Inside cols rows x y) : rim cols rows x y = ' ' := by
  unfold Inside at h
  rw [rim, if_neg (by omega), if_neg (by omega), if_neg (by omega)]

theorem cell_compose (f : VideoFrame) (hx : x + 2 < cols) (hy : y + 2 < rows) :
    (∃ k, f.Lights cols rows x y k ∧ (∀ k', f.Lights cols rows x y k' → k' ≤ k) ∧
        (compose cols rows f []).cell (x + 1) (y + 1) = painted (Palette.rgb k)) ∨
      ((∀ k, ¬f.Lights cols rows x y k) ∧
        (compose cols rows f []).cell (x + 1) (y + 1) = ⟨' ', .plain, .black⟩) := by
  have hblank : (border cols rows).cell (x + 1) (y + 1) = ⟨' ', .plain, .black⟩ := by
    rw [border, cell_ofCells _ (by omega) (by omega), rim_of_inside (by unfold Inside; omega)]
  have hbelow {P : Nat → Prop}
      (h : ∀ j < Palette.size, f.Lights cols rows x y j.toUInt8 → P j) (k : UInt8)
      (hk : f.Lights cols rows x y k) : P k.toNat := by
    refine h k.toNat (Nat.lt_succ_of_le hk.1.2) ?_
    have hindex : k.toNat.toUInt8 = k := UInt8.ofNat_toNat
    rwa [hindex]
  have hpainted := cell_paintBelow (sized_border cols rows) (by omega) (by omega) f
    (Nat.lt_of_succ_lt hx) (Nat.lt_of_succ_lt hy) (Nat.le_refl Palette.size)
  rw [← compose_eq, hblank] at hpainted
  rcases hpainted with ⟨k, hk, hlit, hhighest, hshown⟩ | ⟨hnone, hshown⟩
  · refine .inl ⟨k.toUInt8, hlit, fun k' hk' ↦ ?_, hshown⟩
    have hindex : k.toUInt8.toNat = k := UInt8.toNat_ofNat_of_lt' (Nat.lt_trans hk (by decide))
    rw [UInt8.le_iff_toNat_le, hindex]
    exact hbelow hhighest k' hk'
  · exact .inr ⟨hbelow hnone, hshown⟩

section Drawing

variable {overlay : List String} (hsize : drawnSize cols rows = (width, height))
include hsize

theorem cell_draw (f : VideoFrame) (hx : x < cols) (hy : y < rows)
    (hsized : (compose width height f overlay).Sized width height) :
    (draw cols rows f overlay).cell x y =
      if x < width ∧ y < height then (compose width height f overlay).cell x y else {} := by
  rw [draw, hsize]
  dsimp only
  rw [onScreen, cell_ofCells _ hx hy, hsized.cols_eq, hsized.rows_eq]

/-- Every pixel falls inside the border of the part of a screen that is drawn on, which is all of it
up to 65535 cells. A cell there is painted if and only if a pixel that is not black falls into it,
in the colour of the highest palette index among those that do; all other cells are those of the
border alone. -/
theorem highest_index_shown (hwidth : 3 ≤ width) (hheight : 3 ≤ height) (f : VideoFrame) :
    (cols * rows ≤ 65535 → width = cols ∧ height = rows) ∧
      (∀ column row : UInt8, column.toNat * (width - 3) / 255 < width - 2 ∧
        row.toNat * (height - 3) / 255 < height - 2) ∧
      (∀ x y, x + 1 < cols → y + 1 < rows → x < width - 2 → y < height - 2 →
        let cell := (draw cols rows f []).cell (x + 1) (y + 1)
        (cell.symbol = block ↔ ∃ k, f.Lights width height x y k) ∧
          ((∃ k, f.Lights width height x y k) → ∃ k, f.Lights width height x y k ∧
            (∀ k', f.Lights width height x y k' → k' ≤ k) ∧ cell = painted (Palette.rgb k)) ∧
          ((∀ k, ¬f.Lights width height x y k) → cell = ⟨' ', .plain, .black⟩)) ∧
      ∀ x < cols, ∀ y < rows, ¬Inside width height x y →
        (draw cols rows f []).cell x y =
          if x < width ∧ y < height then ⟨rim width height x y, .plain, .black⟩ else {} := by
  refine ⟨?_, ?_, ?_, ?_⟩
  · intro hsmall
    have hall : cols * rows ≤ maxCells := hsmall
    rw [drawnSize, if_pos hall, Prod.mk.injEq] at hsize
    exact ⟨hsize.1.symm, hsize.2.symm⟩
  · intro column row
    have hcolumn : column.toNat ≤ 255 := Nat.le_of_lt_succ column.toNat_lt
    have hrow : row.toNat ≤ 255 := Nat.le_of_lt_succ row.toNat_lt
    have hx : scale column.toNat (width - 2) < width - 2 := scale_lt hcolumn (by omega)
    have hy : scale row.toNat (height - 2) < height - 2 := scale_lt hrow (by omega)
    simp only [scale, Nat.sub_sub] at hx hy
    exact ⟨hx, hy⟩
  · intro x y hx hy hwx hhy
    have hx' : x + 2 < width := by omega
    have hy' : y + 2 < height := by omega
    have hcell := cell_draw hsize f hx hy (sized_compose width height f)
    rw [if_pos ⟨Nat.lt_of_succ_lt hx', Nat.lt_of_succ_lt hy'⟩] at hcell
    rw [hcell]
    rcases cell_compose f hx' hy' with ⟨k, hlit, hhighest, hshown⟩ | ⟨hnone, hshown⟩
    · rw [hshown]
      refine ⟨⟨fun _ ↦ ⟨k, hlit⟩, fun _ ↦ rfl⟩, fun _ ↦ ⟨k, hlit, hhighest, rfl⟩, ?_⟩
      intro hnone
      exact absurd hlit (hnone k)
    · rw [hshown]
      have hdark : ¬∃ k, f.Lights width height x y k := fun ⟨k, hlit⟩ ↦ hnone k hlit
      refine ⟨⟨fun hblock ↦ ?_, fun hlit ↦ absurd hlit hdark⟩, fun hlit ↦ absurd hlit hdark,
        fun _ ↦ rfl⟩
      exact absurd hblock (by decide)
  · intro x hx y hy hout
    rw [cell_draw hsize f hx hy (sized_compose width height f)]
    split
    · next hon => exact cell_compose_of_outside hwidth hheight f hon.1 hon.2 hout
    · rfl

end Drawing

theorem highest_index_shown_of_white :
    drawnSize 20 10 = (20, 10) ∧ 3 ≤ 20 ∧ 3 ≤ 10 ∧
      (draw 20 10 (.uniform 215) []).cell 1 1 = ⟨block, .rgb ⟨255, 255, 255⟩, .plain⟩ := by
  have hsize : drawnSize 20 10 = (20, 10) := rfl
  refine ⟨hsize, by decide, by decide, ?_⟩
  have hshown := highest_index_shown hsize (by decide) (by decide) (.uniform 215)
  have hlit : (VideoFrame.uniform 215).Lights 20 10 0 0 215 :=
    ⟨by decide, 0, 0, VideoFrame.pixel_uniform .., by decide, by decide⟩
  obtain ⟨-, hpainted, -⟩ := hshown.2.2.1 0 0 (by decide) (by decide) (by decide) (by decide)
  obtain ⟨k, ⟨-, column, row, hpixel, -⟩, -, hcell⟩ := hpainted ⟨_, hlit⟩
  rw [VideoFrame.pixel_uniform] at hpixel
  rw [hcell, ← hpixel]
  rfl

/-- A screen of 256 columns and rows has one cell more than is drawn on, and so loses its last row
and column. -/
theorem large_screen_drawn_on_part :
    (VideoFrame.uniform 215).Lights 256 256 253 253 215 ∧
      ((draw 256 256 (.uniform 215) []).cell 254 254).symbol ≠ block := by
  refine ⟨⟨by decide, 255, 255, VideoFrame.pixel_uniform .., by decide, by decide⟩, ?_⟩
  -- The size is computed in doubles, which the kernel evaluates.
  have hsize : drawnSize 256 256 = (255, 255) := by decide +kernel
  have hout : ¬Inside 255 255 254 254 := by unfold Inside; omega
  rw [cell_draw hsize _ (by decide) (by decide) (sized_compose _ _ _), if_pos (by decide),
    cell_compose_of_outside (by decide) (by decide) _ (by decide) (by decide) hout]
  decide

end Picture

end CopyJump
