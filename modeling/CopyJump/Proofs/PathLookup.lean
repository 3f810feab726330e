import CopyJump.Library

namespace CopyJump

namespace Path

def Component.move (l : Location) : Component → Location
  | .root => []
  | .current => l
  | .parent => l.tail
  | .name part => part :: l

def componentsOf (parts : List (List UInt8)) : List Component :=
  (parts.filter (!isIdle ·)).map Component.ofPart

theorem componentsOf_append (ps qs : List (List UInt8)) :
    componentsOf (ps ++ qs) = componentsOf ps ++ componentsOf qs := by
  simp only [componentsOf, List.filter_append, List.map_append]

theorem fileName?_eq_of_same {p q : Path} (h : p.same q = true) : p.fileName? = q.fileName? := by
  have hc : p.components = q.components := by simpa only [same, beq_iff_eq] using h
  rw [fileName?, hc, fileName?]

theorem same_refl (p : Path) : p.same p = true := by
  simp only [same, beq_self_eq_true]

end Path

namespace FileTree

open CopyJump.Path

variable {t : FileTree}

/-- Components lead from the working directory to a place: all that is above it are directories, and
it is one itself unless a name comes last. -/
structure Leads (t : FileTree) (cs : List Component) (l : Location) : Prop where
  place : l = cs.foldl Component.move t.workDir
  above : ∀ a, a <:+ l.tail → t.entry? a = some .dir
  named : (∃ bs, cs.getLast? = some (.name bs)) ∨ t.entry? l = some .dir

theorem entry?_of_suffix {l : Location} (h : l <:+ t.workDir) : t.entry? l = some .dir := by
  unfold entry?
  rw [if_pos (List.isSuffixOf_iff_suffix.mpr h)]

theorem leads_start (t : FileTree) (p : Path) : Leads t p.start (t.base p) := by
  have hdir : ∀ a, a <:+ (t.base p).tail → t.entry? a = some .dir := by
    intro a ha
    apply entry?_of_suffix
    unfold base at ha
    split at ha
    · rw [List.suffix_nil.mp ha]
      exact List.nil_suffix
    · exact ha.trans (List.tail_suffix _)
  unfold base at hdir ⊢
  unfold Path.start
  by_cases ha : p.isAbsolute = true
  · rw [if_pos ha, if_pos ha]
    rw [if_pos ha] at hdir
    exact ⟨rfl, hdir, .inr (entry?_of_suffix List.nil_suffix)⟩
  · rw [if_neg ha, if_neg ha]
    rw [if_neg ha] at hdir
    refine ⟨?_, hdir, .inr (entry?_of_suffix List.suffix_rfl)⟩
    split <;> rfl

theorem follow_eq_ok {l l' : Location} {part : List UInt8} (h : t.follow l part = .ok l') :
    t.entry? l = some .dir ∧ l' = turn l part := by
  unfold follow at h
  split at h <;> cases h
  exact ⟨by assumption, rfl⟩

theorem Leads.follow {cs : List Component} {l l' : Location} {part : List UInt8}
    (hl : Leads t cs l) (h : t.follow l part = .ok l') :
    Leads t (cs ++ componentsOf [part]) l' := by
  obtain ⟨hdir, rfl⟩ := follow_eq_ok h
  obtain ⟨hplace, habove, -⟩ := hl
  unfold turn
  by_cases hi : isIdle part = true
  · have hnone : componentsOf [part] = [] := by simp [componentsOf, hi]
    rw [if_pos hi, hnone, List.append_nil]
    exact ⟨hplace, habove, .inr hdir⟩
  have hone : componentsOf [part] = [Component.ofPart part] := by simp [componentsOf, hi]
  rw [if_neg hi, hone]
  by_cases hp : part = [dot, dot]
  · rw [if_pos hp, Component.ofPart, if_pos hp]
    refine ⟨?_, fun a ha ↦ habove a (ha.trans (List.tail_suffix _)), ?_⟩
    · rw [List.foldl_append, ← hplace]
      rfl
    · exact .inr (habove _ List.suffix_rfl)
  · rw [if_neg hp, Component.ofPart, if_neg hp]
    refine ⟨?_, ?_, .inl ⟨part, List.getLast?_concat⟩⟩
    · rw [List.foldl_append, ← hplace]
      rfl
    · intro a ha
      cases l with
      | nil =>
        rw [List.suffix_nil.mp ha]
        exact hdir
      | cons name l =>
        rcases List.suffix_cons_iff.mp ha with rfl | ha
        · exact hdir
        · exact habove a ha

theorem Leads.followAll {parts : List (List UInt8)} {cs : List Component} {l l' : Location}
    (hl : Leads t cs l) (h : parts.foldlM t.follow l = .ok l') :
    Leads t (cs ++ componentsOf parts) l' := by
  induction parts generalizing cs l with
  | nil =>
    cases h
    simpa only [componentsOf, List.filter_nil, List.map_nil, List.append_nil] using hl
  | cons part parts ih =>
    rw [List.foldlM_cons] at h
    cases hf : t.follow l part with
    | error fault =>
      rw [hf] at h
      cases h
    | ok l₁ =>
      rw [hf] at h
      have hrest := ih (hl.follow hf) h
      rwa [List.append_assoc, ← componentsOf_append] at hrest

theorem leads_of_locate {p : Path} {l : Location} (h : t.locate p = .ok l) :
    Leads t p.components l := by
  unfold locate at h
  split at h
  · cases h
  · exact (leads_start t p).followAll h

theorem read_eq_ok {p : Path} {data : ByteArray} (h : t.read p = .ok data) :
    ∃ l, t.locate p = .ok l ∧ t.entry? l = some (.file data) := by
  simp only [read, lookup, bind, Except.bind] at h
  cases hl : t.locate p with
  | error fault =>
    rw [hl] at h
    cases h
  | ok l =>
    rw [hl] at h
    dsimp only at h
    refine ⟨l, rfl, ?_⟩
    cases he : t.entry? l with
    | none =>
      rw [he] at h
      cases h
    | some entry =>
      rw [he] at h
      cases entry with
      | dir => cases h
      | file data' =>
        cases h
        rfl

theorem read_eq_of_same {p q : Path} {a b : ByteArray} (h : p.same q = true)
    (hp : t.read p = .ok a) (hq : t.read q = .ok b) : a = b := by
  have hc : p.components = q.components := by simpa only [same, beq_iff_eq] using h
  obtain ⟨l, hl, ha⟩ := read_eq_ok hp
  obtain ⟨l', hl', hb⟩ := read_eq_ok hq
  have hplace : l = l' := by
    rw [(leads_of_locate hl).place, (leads_of_locate hl').place, hc]
  rw [← hplace, ha] at hb
  cases hb
  rfl

theorem fileName?_of_read {p : Path} {data : ByteArray} (h : t.read p = .ok data) :
    ∃ name, p.fileName? = some name := by
  obtain ⟨l, hl, he⟩ := read_eq_ok h
  rcases (leads_of_locate hl).named with ⟨bs, hbs⟩ | hdir
  · exact ⟨bs, by rw [fileName?, hbs]⟩
  · rw [he] at hdir
    cases hdir

theorem fileName_eq_of_same {p q : Path} {data : ByteArray} (h : p.same q = true)
    (hp : t.read p = .ok data) : p.fileName = q.fileName := by
  obtain ⟨name, hname⟩ := fileName?_of_read hp
  have hname' : q.fileName? = some name := (fileName?_eq_of_same h).symm.trans hname
  rw [fileName, hname, fileName, hname']

theorem isFile_iff {p : Path} : t.isFile p = true ↔ ∃ data, t.read p = .ok data := by
  simp only [isFile, read, bind, Except.bind]
  cases t.lookup p with
  | error fault => simp
  | ok entry => cases entry <;> simp [pure, Except.pure, throw, throwThe, MonadExceptOf.throw]

end FileTree

namespace Library

theorem isFile_of_mem_scan {files : FileTree} {dir p : Path} (h : p ∈ (scan files dir).paths) :
    files.isFile p = true := by
  have hmem := List.mem_mergeSort.mp h
  have hrom := (List.mem_filter.mp hmem).2
  exact (Bool.and_eq_true_iff.mp hrom).1

theorem current?_startingAt {files : FileTree} {rom : Path} {data : ByteArray}
    (hr : files.read rom = .ok data) (dir : Path) :
    ∃ path, (startingAt files dir rom).current? = some path ∧ path.same rom = true ∧
      files.read path = .ok data := by
  let paths := (startingAt files dir rom).paths
  have hfile : ∀ p ∈ paths, p.same rom = true → files.isFile p = true := by
    intro p hp hsame
    simp only [paths, startingAt] at hp
    split at hp
    · exact isFile_of_mem_scan hp
    · next hnone =>
      rcases List.mem_append.mp (List.mem_mergeSort.mp hp) with hp | hp
      · exact isFile_of_mem_scan hp
      · rw [List.mem_singleton.mp hp]
        exact FileTree.isFile_iff.mpr ⟨data, hr⟩
  have hany : paths.any (·.same rom) = true := by
    simp only [paths, startingAt]
    split
    · assumption
    · exact List.any_eq_true.mpr
        ⟨rom, List.mem_mergeSort.mpr (List.mem_append_right _ (List.mem_singleton_self _)),
          rom.same_refl⟩
  obtain ⟨i, hi⟩ := Option.isSome_iff_exists.mp ((List.findIdx?_isSome).trans hany)
  obtain ⟨hlt, hsame, -⟩ := List.findIdx?_eq_some_iff_getElem.mp hi
  have hcurrent : (startingAt files dir rom).current? = some paths[i] := by
    have hcursor : (startingAt files dir rom).cursor = (paths.findIdx? (·.same rom)).getD 0 := rfl
    rw [current?, hcursor, hi]
    exact List.getElem?_eq_getElem hlt
  obtain ⟨data', hr'⟩ := FileTree.isFile_iff.mp (hfile _ (List.getElem_mem hlt) hsame)
  exact ⟨paths[i], hcurrent, hsame, by rw [hr', FileTree.read_eq_of_same hsame hr' hr]⟩

end Library

end CopyJump
