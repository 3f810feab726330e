import CopyJump.Proofs.ColourGroups
import Mathlib.Data.List.Nodup
import Mathlib.Logic.Function.Basic

namespace CopyJump

/-- One place comes before another row by row, where the rows go down. -/
def Point.Before (p q : Point) : Prop := q.y < p.y ∨ p.y = q.y ∧ p.x < q.x

theorem Point.Before.ne {p q : Point} (h : p.Before q) : p ≠ q := by
  rintro rfl
  unfold Point.Before at h
  omega

abbrev Canvas := Point → Rgb

namespace Canvas

def blank : Canvas := fun _ ↦ .black

def paint (c : Canvas) (color : Rgb) (points : List Point) : Canvas :=
  points.foldl (fun c point ↦ Function.update c point color) c

def paintAll (c : Canvas) (groups : List (Rgb × List Point)) : Canvas :=
  groups.foldl (fun c (color, points) ↦ c.paint color points) c

theorem paint_apply (c : Canvas) (color : Rgb) (points : List Point) (point : Point) :
    c.paint color points point = if point ∈ points then color else c point := by
  induction points generalizing c with
  | nil => rfl
  | cons p points ih =>
    have hcons : c.paint color (p :: points) = paint (Function.update c p color) color points := rfl
    rw [hcons, ih]
    by_cases hp : point = p
    · subst hp
      simp
    · simp [hp]

theorem paintAll_apply (c : Canvas) {groups : List (Rgb × List Point)} {point : Point} {color : Rgb}
    (h : ∀ group ∈ groups, point ∈ group.2 → group.1 = color) :
    c.paintAll groups point = if point ∈ groups.flatMap Prod.snd then color else c point := by
  induction groups generalizing c with
  | nil => rfl
  | cons group groups ih =>
    rw [List.forall_mem_cons] at h
    have hcons : c.paintAll (group :: groups) = (c.paint group.1 group.2).paintAll groups := rfl
    rw [hcons, ih _ h.2, List.flatMap_cons, paint_apply]
    by_cases hgroup : point ∈ group.2
    · rw [if_pos hgroup, h.1 hgroup, ite_self, if_pos (List.mem_append_left _ hgroup)]
    · have hmem : point ∈ group.2 ++ groups.flatMap Prod.snd ↔ point ∈ groups.flatMap Prod.snd := by
        rw [List.mem_append, or_iff_right hgroup]
      rw [if_neg hgroup, if_congr hmem rfl rfl]

end Canvas

namespace VideoFrame

variable {f : VideoFrame} {i : Nat}

theorem size_sort (buckets : Array (Array Point)) (p : Pixel) :
    (sort buckets p).size = buckets.size := by
  rw [sort]
  split
  · rfl
  · exact Array.size_modify

theorem size_foldl_sort (pixels : List Pixel) (buckets : Array (Array Point)) :
    (pixels.foldl sort buckets).size = buckets.size := by
  induction pixels generalizing buckets with
  | nil => rfl
  | cons p pixels ih => rw [List.foldl_cons, ih, size_sort]

theorem pairwise_before_pixels (f : VideoFrame) :
    f.pixels.Pairwise fun p q ↦ p.point.Before q.point := by
  rw [pixels_eq, List.pairwise_flatMap]
  constructor
  · intro y _
    rw [List.pairwise_map]
    exact List.pairwise_lt_range.imp fun hlt ↦ .inr ⟨rfl, Int.ofNat_lt.mpr hlt⟩
  · refine List.pairwise_lt_range.imp fun {y y'} hlt ↦ ?_
    intro p hp q hq
    obtain ⟨x, -, rfl⟩ := List.mem_map.mp hp
    obtain ⟨x', -, rfl⟩ := List.mem_map.mp hq
    exact .inl (Int.neg_lt_neg (Int.ofNat_lt.mpr hlt))

theorem pairwise_before_places (f : VideoFrame) (i : Nat) : (f.places i).Pairwise Point.Before := by
  rw [places, List.pairwise_map]
  exact f.pairwise_before_pixels.filter _

theorem point_inj {x y x' y' : UInt8} :
    (⟨x.toNat, -y.toNat⟩ : Point) = ⟨x'.toNat, -y'.toNat⟩ ↔ x = x' ∧ y = y' := by
  rw [Point.mk.injEq, Int.neg_inj, Int.ofNat_inj, Int.ofNat_inj, UInt8.toNat_inj, UInt8.toNat_inj]

theorem point_mem_places_iff {x y : UInt8} :
    (⟨x.toNat, -y.toNat⟩ : Point) ∈ f.places i ↔
      Palette.rgb (f.pixel x y) ≠ .black ∧ (f.pixel x y).toNat = i := by
  rw [mem_places, Palette.rgb_ne_black_iff]
  constructor
  · rintro ⟨x', y', hcolour, hi, hpoint⟩
    obtain ⟨rfl, rfl⟩ := point_inj.mp hpoint
    exact ⟨hcolour, hi⟩
  · rintro ⟨hcolour, hi⟩
    exact ⟨x, y, hcolour, hi, rfl⟩

theorem mem_groupIndices : i ∈ f.groupIndices ↔ i < Palette.size ∧ f.places i ≠ [] := by
  simp [groupIndices]

theorem mem_range_of_mem_groupIndices (h : i ∈ f.groupIndices) : 1 ≤ i ∧ i ≤ 215 := by
  obtain ⟨point, hpoint⟩ := List.exists_mem_of_ne_nil _ (mem_groupIndices.mp h).2
  obtain ⟨x, y, hcolour, rfl, -⟩ := mem_places.mp hpoint
  exact hcolour

theorem toNat_of_mem_groupIndices (h : i ∈ f.groupIndices) : i.toUInt8.toNat = i := by
  have hrange := mem_range_of_mem_groupIndices h
  exact UInt8.toNat_ofNat_of_lt' (by show i < 256; omega)

theorem pairwise_groupIndices (f : VideoFrame) : f.groupIndices.Pairwise (· < ·) :=
  List.pairwise_lt_range.filter _

theorem rgb_eq_iff (h : i ∈ f.groupIndices) {index : UInt8} :
    Palette.rgb index = Palette.rgb i.toUInt8 ↔
      Palette.rgb index ≠ .black ∧ index.toNat = i := by
  have hindex := toNat_of_mem_groupIndices h
  have hi : Palette.rgb i.toUInt8 ≠ .black := by
    rw [Palette.rgb_ne_black_iff, hindex]
    exact mem_range_of_mem_groupIndices h
  constructor
  · intro heq
    rw [← heq] at hi
    have hle := (Palette.rgb_ne_black_iff.mp hi).2
    have hle' : i.toUInt8.toNat ≤ 215 := hindex.symm ▸ (mem_range_of_mem_groupIndices h).2
    rw [Palette.rgb_inj hle hle'] at heq
    exact ⟨hi, heq ▸ hindex⟩
  · rintro ⟨-, rfl⟩
    rw [Nat.toUInt8_eq, UInt8.ofNat_toNat]

theorem exists_index {group : Rgb × List Point} (h : group ∈ f.points) :
    ∃ i ∈ f.groupIndices, group.1 = Palette.rgb i.toUInt8 ∧ group.2 = f.places i := by
  rw [points_eq] at h
  obtain ⟨i, hi, rfl⟩ := List.mem_map.mp h
  refine ⟨i, hi, ?_⟩
  dsimp only
  exact ⟨rfl, rfl⟩

theorem map_fst_points (f : VideoFrame) :
    f.points.map Prod.fst = f.groupIndices.map fun i ↦ Palette.rgb i.toUInt8 := by
  rw [points_eq, List.map_map]
  rfl

theorem flatMap_snd_points (f : VideoFrame) :
    f.points.flatMap Prod.snd = f.groupIndices.flatMap f.places := by
  rw [points_eq, List.flatMap_map]

theorem nodup_colours (f : VideoFrame) : (f.points.map Prod.fst).Nodup := by
  rw [map_fst_points]
  refine List.Nodup.map_on ?_ (List.Pairwise.imp Nat.ne_of_lt f.pairwise_groupIndices)
  intro i hi j hj heq
  rw [← toNat_of_mem_groupIndices hi]
  exact ((rgb_eq_iff hj).mp heq).2

theorem mem_group_iff {group : Rgb × List Point} (h : group ∈ f.points) {point : Point} :
    point ∈ group.2 ↔
      ∃ x y : UInt8, point = ⟨x.toNat, -y.toNat⟩ ∧ Palette.rgb (f.pixel x y) = group.1 := by
  obtain ⟨i, hi, hcolour, hplaces⟩ := exists_index h
  simp only [hcolour, hplaces, rgb_eq_iff hi, mem_places, ← Palette.rgb_ne_black_iff]
  constructor
  · rintro ⟨x, y, hcolour, hi, hpoint⟩
    exact ⟨x, y, hpoint, hcolour, hi⟩
  · rintro ⟨x, y, hpoint, hcolour, hi⟩
    exact ⟨x, y, hcolour, hi, hpoint⟩

theorem point_mem_group_iff {group : Rgb × List Point} (h : group ∈ f.points) {x y : UInt8} :
    (⟨x.toNat, -y.toNat⟩ : Point) ∈ group.2 ↔ Palette.rgb (f.pixel x y) = group.1 := by
  obtain ⟨i, hi, hcolour, hplaces⟩ := exists_index h
  rw [hcolour, hplaces, point_mem_places_iff, rgb_eq_iff hi]

theorem point_mem_points_iff {x y : UInt8} :
    (⟨x.toNat, -y.toNat⟩ : Point) ∈ f.points.flatMap Prod.snd ↔
      Palette.rgb (f.pixel x y) ≠ .black := by
  simp only [flatMap_snd_points, List.mem_flatMap, point_mem_places_iff]
  constructor
  · rintro ⟨i, -, hcolour, -⟩
    exact hcolour
  · intro hcolour
    have hlt : (f.pixel x y).toNat < Palette.size :=
      Nat.lt_succ_of_le (Palette.rgb_ne_black_iff.mp hcolour).2
    have hmem := point_mem_places_iff.mpr ⟨hcolour, rfl⟩
    exact ⟨_, mem_groupIndices.mpr ⟨hlt, List.ne_nil_of_mem hmem⟩, hcolour, rfl⟩

theorem nodup_points (f : VideoFrame) : (f.points.flatMap Prod.snd).Nodup := by
  rw [flatMap_snd_points, List.nodup_flatMap]
  constructor
  · intro i _
    exact (f.pairwise_before_places i).imp Point.Before.ne
  · refine f.pairwise_groupIndices.imp fun {i j} hlt point hi hj ↦ ?_
    obtain ⟨x, y, -, rfl, rfl⟩ := mem_places.mp hi
    exact Nat.ne_of_lt hlt (point_mem_places_iff.mp hj).2

/-- The pixels of a frame that are not black are split up by colour, and nothing is lost: every
pixel put into a bucket finds it; the groups come in the order of their palette indices, with
different colours and none empty; a pixel is in the group of its own colour and nowhere else, once,
and the places of a group go row by row. So groups painted on black give the frame back. -/
theorem points_partition (f : VideoFrame) :
    (∀ before p after, f.pixels = before ++ p :: after → Palette.rgb p.index ≠ .black →
        p.index.toNat < (before.foldl sort (Array.replicate Palette.size #[])).size) ∧
      (∃ indices : List UInt8, (∀ index ∈ indices, 1 ≤ index.toNat ∧ index.toNat ≤ 215) ∧
        indices.Pairwise (· < ·) ∧ f.points.map Prod.fst = indices.map Palette.rgb) ∧
      (f.points.map Prod.fst).Nodup ∧
      (∀ group ∈ f.points, group.2 ≠ [] ∧ group.2.Pairwise Point.Before ∧ ∀ point,
        point ∈ group.2 ↔
          ∃ x y : UInt8, point = ⟨x.toNat, -y.toNat⟩ ∧ Palette.rgb (f.pixel x y) = group.1) ∧
      (∀ x y : UInt8, (f.points.flatMap Prod.snd).count ⟨x.toNat, -y.toNat⟩ =
        if Palette.rgb (f.pixel x y) = .black then 0 else 1) ∧
      (∀ x y : UInt8, Canvas.blank.paintAll f.points ⟨x.toNat, -y.toNat⟩ =
        Palette.rgb (f.pixel x y)) ∧
      ∀ index, Palette.rgb index = .black ↔ index = 0 ∨ 216 ≤ index.toNat := by
  refine ⟨?_, ⟨f.groupIndices.map Nat.toUInt8, ?_, ?_, ?_⟩, f.nodup_colours, ?_, ?_, ?_,
    fun _ ↦ Palette.rgb_eq_black_iff⟩
  · intro before p after _ hcolour
    rw [size_foldl_sort, Array.size_replicate]
    exact Nat.lt_succ_of_le (Palette.rgb_ne_black_iff.mp hcolour).2
  · intro index hindex
    obtain ⟨i, hi, rfl⟩ := List.mem_map.mp hindex
    rw [toNat_of_mem_groupIndices hi]
    exact mem_range_of_mem_groupIndices hi
  · rw [List.pairwise_map]
    refine List.Pairwise.imp_of_mem (fun {i j} hi hj hlt ↦ ?_) f.pairwise_groupIndices
    rwa [UInt8.lt_iff_toNat_lt, toNat_of_mem_groupIndices hi, toNat_of_mem_groupIndices hj]
  · rw [map_fst_points, List.map_map]
    rfl
  · intro group hgroup
    obtain ⟨i, hi, -, hplaces⟩ := exists_index hgroup
    refine ⟨?_, ?_, fun point ↦ mem_group_iff hgroup⟩
    · rw [hplaces]
      exact (mem_groupIndices.mp hi).2
    · rw [hplaces]
      exact f.pairwise_before_places i
  · intro x y
    rw [f.nodup_points.count, if_congr point_mem_points_iff rfl rfl, ite_not]
  · intro x y
    have hcolour : ∀ group ∈ f.points, (⟨x.toNat, -y.toNat⟩ : Point) ∈ group.2 →
        group.1 = Palette.rgb (f.pixel x y) :=
      fun group hgroup hmem ↦ ((point_mem_group_iff hgroup).mp hmem).symm
    rw [Canvas.paintAll_apply _ hcolour, if_congr point_mem_points_iff rfl rfl, ite_not]
    split
    · next hblack => exact hblack.symm
    · rfl

end VideoFrame

end CopyJump
