import CopyJump.Proofs.OwnDirectory
import CopyJump.Proofs.PathOrder

namespace CopyJump

open CopyJump.Path

namespace FileTree

variable {t t' : FileTree} {l : Location} {entry : Entry}

/-- Trees that hold the same and may list it in different orders. -/
structure SameEntries (t t' : FileTree) : Prop where
  workDir : t'.workDir = t.workDir
  entries : t'.entries.Perm t.entries

theorem entry?_eq_some_iff (honce : (t.entries.map (·.1)).Nodup) (hl : ¬l <:+ t.workDir) :
    t.entry? l = some entry ↔ (l, entry) ∈ t.entries := by
  unfold entry?
  rw [if_neg (by rwa [List.isSuffixOf_iff_suffix]), Option.map_eq_some_iff]
  constructor
  · rintro ⟨⟨place, entry⟩, hfind, rfl⟩
    obtain rfl : place = l := by simpa using List.find?_some hfind
    exact List.mem_of_find?_eq_some hfind
  · intro he
    have hsome : (t.entries.find? (·.1 == l)).isSome := by
      rw [List.find?_isSome]
      exact ⟨_, he, by simp⟩
    obtain ⟨e, hfind⟩ := Option.isSome_iff_exists.mp hsome
    have hplace : e.1 = l := by simpa using List.find?_some hfind
    have heq := List.inj_on_of_nodup_map honce (List.mem_of_find?_eq_some hfind) he hplace
    exact ⟨e, hfind, by rw [heq]⟩

namespace SameEntries

theorem once (h : SameEntries t t') (hf : t.WellFormed) : (t'.entries.map (·.1)).Nodup :=
  (h.entries.map _).nodup_iff.mpr hf.once

theorem entry?_eq (h : SameEntries t t') (hf : t.WellFormed) : t'.entry? = t.entry? := by
  funext l
  by_cases hl : l <:+ t.workDir
  · rw [entry?_of_suffix hl, entry?_of_suffix (h.workDir ▸ hl)]
  · ext entry
    rw [entry?_eq_some_iff (h.once hf) (h.workDir ▸ hl), entry?_eq_some_iff hf.once hl,
      h.entries.mem_iff]

theorem locate_eq (h : SameEntries t t') (hf : t.WellFormed) : t'.locate = t.locate := by
  have hfollow : t'.follow = t.follow := by
    funext l part
    rw [follow, follow, h.entry?_eq hf]
  funext p
  rw [locate, locate, hfollow, base, base, h.workDir]

theorem wellFormed (h : SameEntries t t') (hf : t.WellFormed) : t'.WellFormed where
  once := h.once hf
  named e he := hf.named e (h.entries.mem_iff.mp he)
  held e he := by
    rw [h.entry?_eq hf]
    exact hf.held e (h.entries.mem_iff.mp he)
  workDir := by
    rw [h.workDir]
    exact hf.workDir

end SameEntries

end FileTree

namespace Library

open FileTree

variable {files files' : FileTree} {dir rom p : Path} {l : Library}

theorem pairwise_precedes_scan (hf : files.WellFormed) (dir : Path) :
    (scan files dir).paths.Pairwise Precedes := by
  have hdistinct : (scan files dir).paths.Pairwise fun p q ↦ p.same q = false := by
    have hplaces := List.pairwise_map.mp (nodup_places_scan hf dir)
    refine hplaces.imp_of_mem ?_
    intro p q hp hq hne
    rw [Bool.eq_false_iff]
    intro hsame
    obtain ⟨l, -, hl, -⟩ := isFile_iff_leads.mp (isFile_of_mem_scan hp)
    obtain ⟨l', -, hl', -⟩ := isFile_iff_leads.mp (isFile_of_mem_scan hq)
    rw [hl, hl', locate_eq_of_same hsame hl hl'] at hne
    exact hne rfl
  rw [scan, ofPaths] at hdistinct ⊢
  refine pairwise_precedes_mergeSort ?_
  refine (List.mergeSort_perm _ le).pairwise hdistinct ?_
  intro p q hpq
  rwa [same, Bool.beq_comm]

theorem eq_of_precedes {paths paths' : List Path} (h : paths.Pairwise Precedes)
    (h' : paths'.Pairwise Precedes) (hmem : ∀ p, p ∈ paths ↔ p ∈ paths') : paths = paths' := by
  have hne {p q : Path} (hpq : p.Precedes q) : p ≠ q := by
    rintro rfl
    exact hpq.asymm hpq
  have hperm : paths.Perm paths' :=
    (List.perm_ext_iff_of_nodup (h.imp hne) (h'.imp hne)).mpr hmem
  exact hperm.eq_of_pairwise (fun p q _ _ hpq hqp ↦ absurd hqp hpq.asymm) h h'

theorem scan_of_sameEntries (h : SameEntries files files') (hf : files.WellFormed) (dir : Path) :
    scan files' dir = scan files dir := by
  have hpaths : (scan files' dir).paths = (scan files dir).paths := by
    refine eq_of_precedes (pairwise_precedes_scan (h.wellFormed hf) dir)
      (pairwise_precedes_scan hf dir) fun p ↦ ?_
    rw [mem_scan (h.wellFormed hf), mem_scan hf, h.locate_eq hf]
    simp only [HoldsRom, h.entry?_eq hf]
  exact congrArg (Library.mk · 0) hpaths

theorem scan_of_not_isDir (hf : files.WellFormed) (h : files.isDir dir = false) :
    (scan files dir).paths = [] := by
  rw [List.eq_nil_iff_forall_not_mem]
  intro p hp
  obtain ⟨d, name, hd, hholds, -⟩ := (mem_scan hf).mp hp
  rw [(isDir_iff hd).mpr (hholds.dir hf)] at h
  cases h

theorem mem_startingAt :
    p ∈ (startingAt files dir rom).paths ↔
      p ∈ (scan files dir).paths ∨
        p = rom ∧ ∀ q ∈ (scan files dir).paths, q.same rom = false := by
  unfold startingAt
  dsimp only
  split
  · next hany =>
    obtain ⟨q, hq, hsame⟩ := List.any_eq_true.mp hany
    refine ⟨.inl, ?_⟩
    rintro (hp | ⟨-, hnone⟩)
    · exact hp
    · rw [hnone q hq] at hsame
      cases hsame
  · next hnone =>
    rw [Bool.not_eq_true, List.any_eq_false] at hnone
    simp only [Bool.not_eq_true] at hnone
    rw [List.mem_mergeSort, List.mem_append, List.mem_singleton, and_iff_left hnone]

theorem pairwise_precedes_startingAt (hf : files.WellFormed) (dir rom : Path) :
    (startingAt files dir rom).paths.Pairwise Precedes := by
  have hscan := pairwise_precedes_scan hf dir
  unfold startingAt
  dsimp only
  split
  · exact hscan
  · next hnone =>
    rw [Bool.not_eq_true, List.any_eq_false] at hnone
    apply pairwise_precedes_mergeSort
    rw [List.pairwise_append]
    refine ⟨hscan.imp fun h ↦ h.not_same, List.pairwise_singleton _ _, ?_⟩
    intro p hp q hq
    rw [List.mem_singleton.mp hq]
    simpa using hnone p hp

theorem findIdx?_startingAt (files : FileTree) (dir rom : Path) :
    (startingAt files dir rom).paths.findIdx? (·.same rom) =
      some (startingAt files dir rom).cursor := by
  have hany : (startingAt files dir rom).paths.any (·.same rom) = true := by
    by_cases hscan : (scan files dir).paths.any (·.same rom) = true
    · obtain ⟨q, hq, hsame⟩ := List.any_eq_true.mp hscan
      exact List.any_eq_true.mpr ⟨q, mem_startingAt.mpr (.inl hq), hsame⟩
    · rw [Bool.not_eq_true, List.any_eq_false] at hscan
      simp only [Bool.not_eq_true] at hscan
      exact List.any_eq_true.mpr ⟨rom, mem_startingAt.mpr (.inr ⟨rfl, hscan⟩), rom.same_refl⟩
  obtain ⟨i, hi⟩ := Option.isSome_iff_exists.mp (List.findIdx?_isSome.trans hany)
  have hcursor : (startingAt files dir rom).cursor =
      ((startingAt files dir rom).paths.findIdx? (·.same rom)).getD 0 := rfl
  rw [hcursor, hi]
  rfl

theorem same_iff_cursor_startingAt (hf : files.WellFormed) {i : Nat}
    (h : (startingAt files dir rom).paths[i]? = some p) :
    p.same rom = true ↔ i = (startingAt files dir rom).cursor := by
  obtain ⟨hlt, hsame, -⟩ :=
    List.findIdx?_eq_some_iff_getElem.mp (findIdx?_startingAt files dir rom)
  obtain ⟨hi, rfl⟩ := List.getElem?_eq_some_iff.mp h
  constructor
  · intro hsame'
    -- Of two entries the one in front precedes the other, so they cannot both be the same as the ROM.
    have heq := same_iff.mpr ((same_iff.mp hsame').trans (same_iff.mp hsame).symm)
    have hpairs := List.pairwise_iff_getElem.mp (pairwise_precedes_startingAt hf dir rom)
    by_contra hne
    rcases Nat.lt_or_gt_of_ne hne with hbefore | hbehind
    · rw [(hpairs _ _ _ _ hbefore).not_same] at heq
      cases heq
    · rw [same, Bool.beq_comm, ← same, (hpairs _ _ _ _ hbehind).not_same] at heq
      cases heq
  · rintro rfl
    exact hsame

theorem cursor_move_lt {move : Library → Library} (hmove : move = next ∨ move = previous)
    (h : l.cursor < l.paths.length) : (move l).cursor < (move l).paths.length := by
  rcases hmove with rfl | rfl
  · unfold next
    split
    · assumption
    · exact h
  · exact Nat.lt_of_le_of_lt (Nat.sub_le _ _) h

theorem cursor_moves_lt {moves : List (Library → Library)}
    (hmoves : ∀ move ∈ moves, move = next ∨ move = previous) (h : l.cursor < l.paths.length) :
    (moves.foldl (fun l move ↦ move l) l).paths = l.paths ∧
      (moves.foldl (fun l move ↦ move l) l).cursor < l.paths.length := by
  induction moves generalizing l with
  | nil => exact ⟨rfl, h⟩
  | cons move moves ih =>
    rw [List.forall_mem_cons] at hmoves
    have hpaths := paths_of_move hmoves.1 l
    have hrest := ih hmoves.2 (cursor_move_lt hmoves.1 h)
    rwa [hpaths] at hrest

/-- A scan finds the ROM files of a directory, each before those that its path precedes, in whatever
order the files are listed, and nothing where there is no directory. The library that starts at a
ROM has beside them only that ROM, if no spelling of it was found. Its cursor is at the one spelling
of the ROM, and stays inside the same ROMs from there. -/
theorem roms_listed_in_order (h : SameEntries files files') (hf : files.WellFormed)
    (dir rom : Path) {moves : List (Library → Library)}
    (hmoves : ∀ move ∈ moves, move = next ∨ move = previous) :
    let found := (scan files dir).paths
    let l := startingAt files dir rom
    let moved := moves.foldl (fun l move ↦ move l) l
    scan files' dir = scan files dir ∧ startingAt files' dir rom = l ∧
      found.Pairwise Precedes ∧
      (∀ p, p ∈ found ↔
        ∃ d name, files.locate dir = .ok d ∧ files.HoldsRom d name ∧ p = dir.child name) ∧
      (files.isDir dir = false → found = []) ∧
      l.paths.Pairwise Precedes ∧
      (∀ p, p ∈ l.paths ↔ p ∈ found ∨ p = rom ∧ ∀ q ∈ found, q.same rom = false) ∧
      l.paths.findIdx? (·.same rom) = some l.cursor ∧
      (∀ i p, l.paths[i]? = some p → (p.same rom = true ↔ i = l.cursor)) ∧
      moved.paths = l.paths ∧ moved.cursor < l.paths.length := by
  intro found l moved
  have hscan := scan_of_sameEntries h hf dir
  have hfound := findIdx?_startingAt files dir rom
  have hinside : l.cursor < l.paths.length :=
    (List.findIdx?_eq_some_iff_getElem.mp hfound).1
  refine ⟨hscan, ?_, pairwise_precedes_scan hf dir, fun p ↦ mem_scan hf, scan_of_not_isDir hf,
    pairwise_precedes_startingAt hf dir rom, fun p ↦ mem_startingAt, hfound,
    fun i p ↦ same_iff_cursor_startingAt hf, cursor_moves_lt hmoves hinside⟩
  rw [startingAt, hscan]
  rfl

theorem roms_listed_in_order_of_reversed :
    let first : Path := .ofString "a.bp"
    let second : Path := .ofString "b.BP"
    let notes : Path := .ofString "notes.txt"
    let dir : Path := .ofString "roms"
    let rom : Path := .ofString "roms//./b.BP"
    let files : FileTree := ⟨[], [([second.bytes, dir.bytes], .file ⟨#[2]⟩),
      ([notes.bytes, dir.bytes], .file ⟨#[0]⟩), ([dir.bytes], .dir),
      ([first.bytes, dir.bytes], .file ⟨#[1]⟩)]⟩
    let reversed : FileTree := ⟨[], files.entries.reverse⟩
    let l := startingAt files dir rom
    SameEntries files reversed ∧ files.WellFormed ∧
      (∀ move ∈ [next, previous, next], move = next ∨ move = previous) ∧
      scan reversed dir = scan files dir ∧ (scan files dir).paths.Pairwise Precedes ∧
      dir.child first.bytes ∈ (scan files dir).paths ∧
      l.paths.findIdx? (·.same rom) = some l.cursor ∧
      l.next.previous.next.cursor < l.paths.length := by
  intro first second notes dir rom files reversed l
  have hsame : SameEntries files reversed := ⟨rfl, List.reverse_perm _⟩
  have hf : files.WellFormed := by
    refine ⟨by decide, by decide, ?_, by decide⟩
    simp only [files, List.forall_mem_cons]
    exact ⟨rfl, rfl, rfl, rfl, by simp⟩
  have hmoves : ∀ move ∈ [next, previous, next], move = next ∨ move = previous := by simp
  obtain ⟨hscan, -, hsorted, hmem, -, -, -, hcursor, -, -, hinside⟩ :=
    roms_listed_in_order hsame hf dir rom hmoves
  refine ⟨hsame, hf, hmoves, hscan, hsorted, ?_, hcursor, hinside⟩
  exact (hmem _).mpr ⟨[dir.bytes], first.bytes, rfl, ⟨⟨⟨#[1]⟩, rfl⟩, rfl⟩, rfl⟩

end Library

end CopyJump
