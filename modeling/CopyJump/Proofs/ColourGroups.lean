import CopyJump.Palette

namespace CopyJump

theorem Palette.rgb_ne_black_iff {index : UInt8} :
    rgb index ≠ .black ↔ 1 ≤ index.toNat ∧ index.toNat ≤ 215 := by
  unfold rgb
  have hlt := index.toNat_lt
  have h36 : (36 : UInt8).toNat = 36 := rfl
  have h6 : (6 : UInt8).toNat = 6 := rfl
  have hlevel : level.toNat = 51 := rfl
  have hzero : (0 : UInt8).toNat = 0 := rfl
  split
  · next hlarge =>
    rw [size] at hlarge
    simp only [ne_eq, not_true_eq_false, false_iff]
    omega
  · next hsmall =>
    rw [size] at hsmall
    simp only [Rgb.black, ne_eq, Rgb.mk.injEq, ← UInt8.toNat_inj, UInt8.toNat_mul, UInt8.toNat_div,
      UInt8.toNat_mod, h36, h6, hlevel, hzero]
    omega

theorem Palette.rgb_eq_black_iff {index : UInt8} :
    rgb index = .black ↔ index = 0 ∨ 216 ≤ index.toNat := by
  rw [← Decidable.not_iff_not, ← ne_eq, rgb_ne_black_iff, ← UInt8.toNat_inj, UInt8.toNat_zero]
  omega

theorem Palette.rgb_inj {index index' : UInt8} (h : index.toNat ≤ 215) (h' : index'.toNat ≤ 215) :
    rgb index = rgb index' ↔ index = index' := by
  have h36 : (36 : UInt8).toNat = 36 := rfl
  have h6 : (6 : UInt8).toNat = 6 := rfl
  have hlevel : level.toNat = 51 := rfl
  -- No channel goes past a byte, so that its level can be read off it.
  have hchannel {n : Nat} (hn : n ≤ 5) : n * 51 % 2 ^ 8 = n * 51 := Nat.mod_eq_of_lt (by omega)
  rw [rgb, rgb, if_neg (by rw [size]; omega), if_neg (by rw [size]; omega)]
  simp only [Rgb.mk.injEq, ← UInt8.toNat_inj, UInt8.toNat_mul, UInt8.toNat_div, UInt8.toNat_mod,
    h36, h6, hlevel]
  rw [hchannel (by omega), hchannel (by omega), hchannel (by omega), hchannel (by omega),
    hchannel (by omega), hchannel (by omega)]
  omega

namespace VideoFrame

variable {f : VideoFrame} {p : Pixel} {pixels : List Pixel} {i : Nat}

def Pixel.shows (p : Pixel) (i : Nat) : Bool := Palette.rgb p.index ≠ .black && p.index.toNat == i

def places (f : VideoFrame) (i : Nat) : List Point :=
  (f.pixels.filter (·.shows i)).map Pixel.point

def groupIndices (f : VideoFrame) : List Nat :=
  (List.range Palette.size).filter fun i ↦ !(f.places i).isEmpty

theorem zipIdx_map_range {α : Type} (n : Nat) (g : Nat → α) :
    ((List.range n).map g).zipIdx = (List.range n).map fun i ↦ (g i, i) := by
  apply List.ext_getElem?
  intro i
  by_cases hi : i < n <;> simp [hi]

theorem toList_row (f : VideoFrame) {y : Nat} (hy : y < 256) :
    (f.row y).data.toList = (List.range 256).map fun x ↦ f.pixel x.toUInt8 y.toUInt8 := by
  have hsize : f.bytes.data.size = 65536 := f.size_eq
  apply List.ext_getElem
  · simp [row, screenWidth, ByteArray.data_extract, hsize]
    omega
  · intro x hx hx'
    rw [List.length_map, List.length_range] at hx'
    have hrow : y.toUInt8.toNat = y := UInt8.toNat_ofNat_of_lt' hy
    simp [row, pixel, screenWidth, ByteArray.data_extract, hrow, Nat.mod_eq_of_lt hx']
    rfl

theorem pixels_eq (f : VideoFrame) :
    f.pixels = (List.range 256).flatMap fun y ↦ (List.range 256).map fun x ↦
      ⟨x, y, f.pixel x.toUInt8 y.toUInt8⟩ := by
  rw [pixels, rows, screenHeight, zipIdx_map_range, List.flatMap_map, List.flatMap_def,
    List.flatMap_def]
  refine congrArg List.flatten (List.map_congr_left fun y hy ↦ ?_)
  dsimp only
  rw [toList_row f (List.mem_range.mp hy), zipIdx_map_range, List.map_map]
  rfl

theorem mem_pixels : p ∈ f.pixels ↔ ∃ x y : UInt8, p = ⟨x.toNat, y.toNat, f.pixel x y⟩ := by
  simp only [pixels_eq, List.mem_flatMap, List.mem_map, List.mem_range]
  constructor
  · rintro ⟨y, hy, x, hx, rfl⟩
    have hcolumn : x.toUInt8.toNat = x := UInt8.toNat_ofNat_of_lt' hx
    have hrow : y.toUInt8.toNat = y := UInt8.toNat_ofNat_of_lt' hy
    exact ⟨x.toUInt8, y.toUInt8, by rw [hcolumn, hrow]⟩
  · rintro ⟨x, y, rfl⟩
    refine ⟨y.toNat, y.toNat_lt, x.toNat, x.toNat_lt, ?_⟩
    simp

theorem getElem?_foldl_sort (pixels : List Pixel) (buckets : Array (Array Point)) (i : Nat) :
    (pixels.foldl sort buckets)[i]? =
      buckets[i]?.map (· ++ ((pixels.filter (·.shows i)).map Pixel.point).toArray) := by
  induction pixels generalizing buckets with
  | nil => simp
  | cons p pixels ih =>
    rw [List.foldl_cons, ih, sort]
    by_cases hblack : Palette.rgb p.index = .black
    · simp [hblack, Pixel.shows]
    · by_cases hi : p.index.toNat = i
      · subst hi
        rw [if_neg hblack, Array.getElem?_modify]
        cases buckets[p.index.toNat]? <;> simp [hblack, Pixel.shows]
      · simp [hblack, hi, Pixel.shows, Array.getElem?_modify]

theorem toList_buckets (f : VideoFrame) :
    f.buckets.toList = (List.range Palette.size).map fun i ↦ (f.places i).toArray := by
  apply List.ext_getElem?
  intro i
  rw [Array.getElem?_toList, buckets, getElem?_foldl_sort]
  by_cases hi : i < Palette.size <;> simp [hi, places]

theorem points_eq (f : VideoFrame) :
    f.points = f.groupIndices.map fun i ↦ (Palette.rgb i.toUInt8, f.places i) := by
  rw [points, toList_buckets, zipIdx_map_range, List.filter_map, List.map_map]
  simp [Function.comp_def, groupIndices]

theorem mem_places {point : Point} :
    point ∈ f.places i ↔ ∃ column row : UInt8,
      (1 ≤ (f.pixel column row).toNat ∧ (f.pixel column row).toNat ≤ 215) ∧
        (f.pixel column row).toNat = i ∧ point = ⟨column.toNat, -row.toNat⟩ := by
  simp only [places, List.mem_map, List.mem_filter, mem_pixels, Pixel.shows, Bool.and_eq_true,
    decide_eq_true_iff, beq_iff_eq, Palette.rgb_ne_black_iff]
  constructor
  · rintro ⟨p, ⟨⟨column, row, rfl⟩, hcolour, hi⟩, rfl⟩
    exact ⟨column, row, hcolour, hi, rfl⟩
  · rintro ⟨column, row, hcolour, hi, rfl⟩
    exact ⟨_, ⟨⟨column, row, rfl⟩, hcolour, hi⟩, rfl⟩

end VideoFrame

end CopyJump
