import CopyJump.Device.Scripted
import CopyJump.Proofs.Directories
import CopyJump.Proofs.HostParts

namespace CopyJump

open CopyJump.Path

namespace FileTree

variable {t : FileTree} {d : Location} {name : List UInt8}

def HoldsRom (t : FileTree) (d : Location) (name : List UInt8) : Prop :=
  (∃ data, t.entry? (name :: d) = some (.file data)) ∧ isRom ⟨name⟩ = true

theorem HoldsRom.isName (h : t.HoldsRom d name) (hf : t.WellFormed) : IsName name := by
  obtain ⟨⟨data, hfile⟩, -⟩ := h
  exact hf.isName (mem_entries hfile)

theorem HoldsRom.dir (h : t.HoldsRom d name) (hf : t.WellFormed) : t.entry? d = some .dir := by
  obtain ⟨⟨data, hfile⟩, -⟩ := h
  exact hf.tail hfile

theorem isRom_of_spells {p dir : Path} (h : Spells p dir name) (hname : IsName name) :
    p.isRom = isRom ⟨name⟩ := by
  have hparts : parts ⟨name⟩ = [] ++ [name] := split_of_no_slash hname.no_slash
  have hone : fileName? ⟨name⟩ = some name := by
    rw [fileName?, getLast?_components hparts hname]
  rw [isRom, isRom, h.fileName?_eq hname, hone]

end FileTree

namespace Library

open FileTree

variable {files : FileTree} {dir rom p : Path} {d place : Location} {name : List UInt8}
  {r : Except Fault Location}

def places (files : FileTree) (l : Library) : List (Except Fault Location) :=
  l.paths.map files.locate

theorem locate_child (hd : files.locate dir = .ok d) (hdir : files.entry? d = some .dir)
    (hname : IsName name) : files.locate (dir.child name) = .ok (name :: d) :=
  (locate_of_spells (spells_child (bytes_ne_nil_of_locate hd) hname.no_slash) hname).mpr
    ⟨d, hd, hdir, rfl⟩

theorem list_eq (hd : files.locate dir = .ok d) (hdir : files.entry? d = some .dir) :
    files.list dir = files.namesAt d := by
  rw [list, hd]
  exact if_pos ((isDir_iff hd).mpr hdir)

theorem mem_list (h : name ∈ files.list dir) :
    ∃ d, files.locate dir = .ok d ∧ files.entry? d = some .dir ∧ name ∈ files.namesAt d := by
  unfold list at h
  split at h
  · next d hd =>
    split at h
    · next hdir => exact ⟨d, hd, (isDir_iff hd).mp hdir, h⟩
    · cases h
  · cases h

theorem isName_of_mem_namesAt (hf : files.WellFormed) (h : name ∈ files.namesAt d) :
    IsName name := by
  obtain ⟨entry, he⟩ := mem_namesAt.mp h
  exact hf.isName he

theorem mem_scan (hf : files.WellFormed) :
    p ∈ (scan files dir).paths ↔
      ∃ d name, files.locate dir = .ok d ∧ files.HoldsRom d name ∧ p = dir.child name := by
  simp only [scan, ofPaths, List.mem_mergeSort, List.mem_filter, List.mem_map, Bool.and_eq_true]
  constructor
  · rintro ⟨⟨name, hmem, rfl⟩, hfile, hrom⟩
    obtain ⟨d, hd, hdir, hmem⟩ := mem_list hmem
    have hname := isName_of_mem_namesAt hf hmem
    obtain ⟨l, data, hl, hentry⟩ := isFile_iff_leads.mp hfile
    cases hl.symm.trans (locate_child hd hdir hname)
    rw [isRom_of_spells (spells_child (bytes_ne_nil_of_locate hd) hname.no_slash) hname] at hrom
    exact ⟨d, name, hd, ⟨⟨data, hentry⟩, hrom⟩, rfl⟩
  · rintro ⟨d, name, hd, hholds, rfl⟩
    have hname := hholds.isName hf
    have hdir := hholds.dir hf
    obtain ⟨⟨data, hentry⟩, hrom⟩ := hholds
    refine ⟨⟨name, ?_, rfl⟩, ?_, ?_⟩
    · rw [list_eq hd hdir]
      exact mem_namesAt.mpr ⟨_, mem_entries hentry⟩
    · exact isFile_iff_leads.mpr ⟨_, data, locate_child hd hdir hname, hentry⟩
    · rwa [isRom_of_spells (spells_child (bytes_ne_nil_of_locate hd) hname.no_slash) hname]

theorem mem_places_scan (hf : files.WellFormed) :
    r ∈ (scan files dir).places files ↔
      ∃ d name, files.locate dir = .ok d ∧ files.HoldsRom d name ∧ r = .ok (name :: d) := by
  rw [places, List.mem_map]
  constructor
  · rintro ⟨p, hp, rfl⟩
    obtain ⟨d, name, hd, hholds, rfl⟩ := (mem_scan hf).mp hp
    exact ⟨d, name, hd, hholds, locate_child hd (hholds.dir hf) (hholds.isName hf)⟩
  · rintro ⟨d, name, hd, hholds, rfl⟩
    exact ⟨_, (mem_scan hf).mpr ⟨d, name, hd, hholds, rfl⟩,
      locate_child hd (hholds.dir hf) (hholds.isName hf)⟩

theorem nodup_places_scan (hf : files.WellFormed) (dir : Path) :
    ((scan files dir).places files).Nodup := by
  have hlisted : (((files.list dir).map dir.child).map files.locate).Nodup := by
    cases hlist : files.list dir with
    | nil => exact List.nodup_nil
    | cons first names =>
      obtain ⟨d, hd, hdir, -⟩ := mem_list (hlist ▸ List.mem_cons_self : first ∈ files.list dir)
      rw [← hlist, list_eq hd hdir, List.map_map]
      refine List.Nodup.map_on ?_ (hf.nodup_namesAt d)
      intro name hname name' hname' heq
      rw [Function.comp_apply, Function.comp_apply,
        locate_child hd hdir (isName_of_mem_namesAt hf hname),
        locate_child hd hdir (isName_of_mem_namesAt hf hname')] at heq
      exact List.head_eq_of_cons_eq (Except.ok.inj heq)
  rw [places, scan, ofPaths, ((List.mergeSort_perm _ _).map _).nodup_iff]
  exact (List.filter_sublist.map _).nodup hlisted

theorem locate_eq_of_same {q : Path} {l l' : Location} (h : p.same q = true)
    (hp : files.locate p = .ok l) (hq : files.locate q = .ok l') : l = l' := by
  have hc : p.components = q.components := by simpa only [same, beq_iff_eq] using h
  rw [(leads_of_locate hp).place, (leads_of_locate hq).place, hc]

theorem mem_places_startingAt (hplace : files.locate rom = .ok place) :
    r ∈ (startingAt files dir rom).places files ↔
      r = .ok place ∨ r ∈ (scan files dir).places files := by
  unfold startingAt
  dsimp only [places]
  split
  · next hany =>
    obtain ⟨p, hp, hsame⟩ := List.any_eq_true.mp hany
    have hmem : .ok place ∈ (scan files dir).paths.map files.locate := by
      obtain ⟨l, -, hl, -⟩ := isFile_iff_leads.mp (isFile_of_mem_scan hp)
      rw [← locate_eq_of_same hsame hl hplace, ← hl]
      exact List.mem_map_of_mem hp
    constructor
    · exact .inr
    · rintro (rfl | h)
      · exact hmem
      · exact h
  · rw [((List.mergeSort_perm _ _).map _).mem_iff, List.map_append, List.mem_append, or_comm]
    simp [hplace]

theorem nodup_places_startingAt_iff (hf : files.WellFormed)
    (hplace : files.locate rom = .ok place) :
    ((startingAt files dir rom).places files).Nodup ↔
      (.ok place ∈ (scan files dir).places files →
        ∃ p ∈ (scan files dir).paths, p.same rom = true) := by
  have hscan := nodup_places_scan hf dir
  unfold startingAt
  dsimp only [places] at hscan ⊢
  split
  · next hany => exact ⟨fun _ _ ↦ List.any_eq_true.mp hany, fun _ ↦ hscan⟩
  · next hnone =>
    have hdiffers : ¬∃ p ∈ (scan files dir).paths, p.same rom = true := by
      rwa [← List.any_eq_true]
    rw [((List.mergeSort_perm _ _).map _).nodup_iff, List.map_append, List.nodup_append_comm]
    simp only [List.map_cons, List.map_nil, hplace, List.singleton_append, List.nodup_cons, hscan,
      and_true, hdiffers, imp_false]

/-- The paths lead to a file and to the ROM files beside it, to each of them once. -/
structure ListsBeside (files : FileTree) (place : Location) (l : Library) : Prop where
  once : (l.places files).Nodup
  mem_iff : ∀ r, r ∈ l.places files ↔
    r = .ok place ∨ ∃ name, files.HoldsRom place.tail name ∧ r = .ok (name :: place.tail)

theorem listsBeside_of_spells (hf : files.WellFormed) (h : Spells rom dir name)
    (hname : IsName name) (hplace : files.locate rom = .ok place) :
    ListsBeside files place (startingAt files dir rom) := by
  obtain ⟨d, hd, -, rfl⟩ := (locate_of_spells h hname).mp hplace
  constructor
  · rw [nodup_places_startingAt_iff hf hplace, mem_places_scan hf]
    rintro ⟨d', name', hd', hholds, heq⟩
    cases heq
    refine ⟨_, (mem_scan hf).mpr ⟨d, name, hd, hholds, rfl⟩, ?_⟩
    have hchild := spells_child (bytes_ne_nil_of_locate hd) hname.no_slash
    rw [same, beq_iff_eq, hchild.components_eq hname, h.components_eq hname]
  · intro r
    rw [mem_places_startingAt hplace, mem_places_scan hf, List.tail_cons]
    constructor
    · rintro (rfl | ⟨d', name', hd', hholds, rfl⟩)
      · exact .inl rfl
      · cases hd.symm.trans hd'
        exact .inr ⟨name', hholds, rfl⟩
    · rintro (rfl | ⟨name', hholds, rfl⟩)
      · exact .inl rfl
      · exact .inr ⟨d, name', hd, hholds, rfl⟩

/-- A ROM named without a directory has the ROMs of its own only by chance: the scan of another
directory finds none of them, and that of its own finds the ROM by a path that is not the same. -/
theorem listsBeside_of_bare_iff (hf : files.WellFormed) (hparts : rom.parts = [name])
    (hname : IsName name) {data : ByteArray}
    (hfile : files.entry? (name :: files.workDir) = some (.file data))
    (hplace : files.locate rom = .ok (name :: files.workDir)) :
    ListsBeside files (name :: files.workDir) (startingAt files dir rom) ↔
      (files.locate dir = .ok files.workDir ∧ rom.isRom = false) ∨
      ((∀ d other, files.locate dir = .ok d → ¬files.HoldsRom d other) ∧
        ∀ other, files.HoldsRom files.workDir other → other = name) := by
  have hrom : rom.isRom = true ↔ files.HoldsRom files.workDir name := by
    have hbytes : rom = ⟨name⟩ := by rw [← bytes_eq_of_parts hparts]
    rw [HoldsRom, ← hbytes]
    exact ⟨fun h ↦ ⟨⟨data, hfile⟩, h⟩, And.right⟩
  have hdiffers : ¬∃ p ∈ (scan files dir).paths, p.same rom = true := by
    rintro ⟨p, hp, hsame⟩
    obtain ⟨d, other, hd, hholds, rfl⟩ := (mem_scan hf).mp hp
    have hdir := bytes_ne_nil_of_locate hd
    have hother := hholds.isName hf
    rw [same, beq_iff_eq, (spells_child hdir hother.no_slash).components_eq hother,
      components_of_single hparts hname] at hsame
    have hlength := congrArg List.length hsame
    have hpos := List.length_pos_iff.mpr (components_ne_nil hdir)
    simp only [List.length_append, List.length_singleton] at hlength
    omega
  have honce : ((startingAt files dir rom).places files).Nodup ↔
      ¬∃ d other, files.locate dir = .ok d ∧ files.HoldsRom d other ∧
        name :: files.workDir = other :: d := by
    rw [nodup_places_startingAt_iff hf hplace, mem_places_scan hf]
    simp only [hdiffers, imp_false, Except.ok.injEq]
  constructor
  · rintro ⟨hnodup, hmem⟩
    rw [honce] at hnodup
    by_cases hsome : ∃ d other, files.locate dir = .ok d ∧ files.HoldsRom d other
    · obtain ⟨d, other, hd, hholds⟩ := hsome
      have hlisted := (hmem _).mp ((mem_places_startingAt hplace).mpr
        (.inr ((mem_places_scan hf).mpr ⟨d, other, hd, hholds, rfl⟩)))
      rcases hlisted with heq | ⟨other', -, heq⟩
      · exact absurd ⟨d, other, hd, hholds, (Except.ok.inj heq).symm⟩ hnodup
      · obtain rfl : d = files.workDir := List.tail_eq_of_cons_eq (Except.ok.inj heq)
        refine .inl ⟨hd, ?_⟩
        rw [← Bool.not_eq_true, hrom]
        exact fun h ↦ hnodup ⟨_, name, hd, h, rfl⟩
    · refine .inr ⟨fun d other hd hholds ↦ hsome ⟨d, other, hd, hholds⟩, ?_⟩
      intro other hholds
      have hlisted := (mem_places_startingAt hplace).mp ((hmem _).mpr (.inr ⟨other, hholds, rfl⟩))
      rcases hlisted with heq | hscan
      · exact List.head_eq_of_cons_eq (Except.ok.inj heq)
      · obtain ⟨d, other', hd, hholds', -⟩ := (mem_places_scan hf).mp hscan
        exact absurd ⟨d, other', hd, hholds'⟩ hsome
  · rintro (⟨hd, hext⟩ | ⟨hnone, honly⟩)
    · refine ⟨honce.mpr ?_, fun r ↦ ?_⟩
      · rintro ⟨d, other, hd', hholds, heq⟩
        cases heq
        rw [hrom.mpr hholds] at hext
        cases hext
      · rw [mem_places_startingAt hplace, mem_places_scan hf, List.tail_cons]
        simp [hd]
    · refine ⟨honce.mpr ?_, fun r ↦ ?_⟩
      · rintro ⟨d, other, hd, hholds, -⟩
        exact hnone d other hd hholds
      · rw [mem_places_startingAt hplace, mem_places_scan hf, List.tail_cons]
        constructor
        · rintro (rfl | ⟨d, other, hd, hholds, -⟩)
          · exact .inl rfl
          · exact absurd hholds (hnone d other hd)
        · rintro (rfl | ⟨other, hholds, rfl⟩)
          · exact .inl rfl
          · exact .inl (by rw [honly other hholds])

end Library

namespace Host

open FileTree

variable {C : Type} [Console C]

theorem start_of_rom {config : Config} {m : Moment} {rom : Path} {data : ByteArray}
    (hrom : config.rom = some rom) (hread : m.files.read rom = .ok data) (console : C) :
    ∃ h, start config console m = .ok h ∧
      h.desk.library = .startingAt m.files (dirFor config rom) rom := by
  have hlibrary : library config m.files = .startingAt m.files (dirFor config rom) rom := by
    rw [library, hrom]
  obtain ⟨path, hcurrent, -, hr⟩ := Library.current?_startingAt hread (dirFor config rom)
  rw [← hlibrary] at hcurrent ⊢
  have hloads : (initial config console m).desk.library.read m.files
      (initial config console m).desk.romDir = .ok (path, data) :=
    Library.read_eq_ok_iff.mpr ⟨hcurrent, hr⟩
  have hfilled : (initial config console m).desk.library.isEmpty ≠ true :=
    Library.not_isEmpty_of_current? hcurrent
  rw [start_eq]
  dsimp only
  rw [if_neg hfilled]
  rcases loadCurrent_cases m.files (initial config console m) with ⟨e, hr', -⟩ |
    ⟨path', rom', memory, -, -, hl⟩ | ⟨path', rom', e, -, -, hl⟩
  · cases hloads.symm.trans hr'
  · simp only [outcome, after, hl]
    exact ⟨_, rfl, rfl⟩
  · simp only [outcome, after, hl]
    exact ⟨_, rfl, rfl⟩

theorem dirFor_of_bare {config : Config} {rom : Path} (h : rom.parent? = some ⟨[]⟩) :
    dirFor config rom = config.romDir := by
  rw [dirFor, h]
  rfl

theorem dirFor_of_spells {config : Config} {rom dir : Path} {name : List UInt8}
    (h : rom.parent? = some dir) (hspells : Spells rom dir name) : dirFor config rom = dir := by
  rw [dirFor, h]
  exact if_neg (by simpa using hspells.dir_ne_nil)

/-- A host that is given a ROM it can read has the ROMs of that directory to choose from, each once,
if and only if the ROM is named behind a directory, or the ROM directory is the working directory
and would not list the ROM itself, or neither directory has a ROM to add. -/
theorem own_directory_listed_iff {config : Config} {m : Moment} {rom : Path} {data : ByteArray}
    (hf : m.files.WellFormed) (hrom : config.rom = some rom) (hread : m.files.read rom = .ok data)
    (console : C) :
    ∃ h place, start config console m = .ok h ∧ m.files.locate rom = .ok place ∧
      (h.desk.library.ListsBeside m.files place ↔
        rom.parent? ≠ some ⟨[]⟩ ∨
        (m.files.locate config.romDir = .ok m.files.workDir ∧ rom.isRom = false) ∨
        ((∀ d name, m.files.locate config.romDir = .ok d → ¬m.files.HoldsRom d name) ∧
          ∀ name, m.files.HoldsRom m.files.workDir name → name = rom.bytes)) := by
  obtain ⟨h, hstart, hlibrary⟩ := start_of_rom hrom hread console
  obtain ⟨place, hplace, hfile⟩ := read_eq_ok hread
  refine ⟨h, place, hstart, hplace, ?_⟩
  rw [hlibrary]
  obtain ⟨init, name, d, hparts, hname, rfl, hd⟩ := parts_of_file hplace hfile
  rcases parent?_of_name hparts hname with ⟨rfl, hparent⟩ | ⟨dir, hparent, hspells⟩
  · have hsingle : rom.parts = [name] := hparts
    obtain rfl : m.files.workDir = d := by
      rw [base, if_neg (not_isAbsolute_of_single hsingle hname)] at hd
      exact Except.ok.inj hd
    rw [dirFor_of_bare hparent, bytes_eq_of_parts hsingle, hparent,
      Library.listsBeside_of_bare_iff hf hsingle hname hfile hplace]
    simp
  · rw [dirFor_of_spells hparent hspells]
    have hbehind : rom.parent? ≠ some ⟨[]⟩ := by
      rw [hparent]
      intro heq
      exact hspells.dir_ne_nil (congrArg Path.bytes (Option.some.inj heq))
    exact iff_of_true (Library.listsBeside_of_spells hf hspells hname hplace) (.inl hbehind)

theorem own_directory_listed_of_spelling :
    let rom : Path := .ofString "roms//sub/.././a.bp"
    let files : FileTree := ((⟨[], []⟩ : FileTree).putFile (.ofString "roms/a.bp") ⟨#[1]⟩).putFile
      (.ofString "roms/sub/b.bp") ⟨#[2]⟩
    let console : Devices ScriptedKeypad ScriptedSpeaker ScriptedScreen :=
      { keypad := {}, speaker := {}, screen := {} }
    files.WellFormed ∧ files.read rom = .ok ⟨#[1]⟩ ∧
      ∃ h place, start { rom := some rom } console ⟨0, files⟩ = .ok h ∧
        files.locate rom = .ok place ∧ h.desk.library.ListsBeside files place := by
  intro rom files console
  have hf : files.WellFormed := ((wellFormed_nil (by decide)).putFile _ _).putFile _ _
  have hread : files.read rom = .ok ⟨#[1]⟩ := rfl
  let config : Config := { rom := some rom }
  obtain ⟨h, place, hstart, hplace, hlists⟩ :=
    @own_directory_listed_iff _ _ config ⟨0, files⟩ rom ⟨#[1]⟩ hf rfl hread console
  exact ⟨hf, hread, h, place, hstart, hplace, hlists.mpr (.inl (by decide))⟩

/-- A bare name gets the ROMs of the ROM directory instead of its own, and is listed twice if they
are one. -/
theorem bare_rom_listed_apart :
    let rom : Path := .ofString "a.bp"
    let beside : Path := .ofString "b.bp"
    let other : Path := .ofString "c.bp"
    let dir : Path := .ofString "roms"
    let files : FileTree := ⟨[], [([rom.bytes], .file ⟨#[1]⟩), ([beside.bytes], .file ⟨#[2]⟩),
      ([dir.bytes], .dir), ([other.bytes, dir.bytes], .file ⟨#[3]⟩)]⟩
    let console : Devices ScriptedKeypad ScriptedSpeaker ScriptedScreen :=
      { keypad := {}, speaker := {}, screen := {} }
    files.WellFormed ∧ files.read rom = .ok ⟨#[1]⟩ ∧ files.locate rom = .ok [rom.bytes] ∧
      (∃ h, start { rom := some rom, romDir := dir } console ⟨0, files⟩ = .ok h ∧
        ¬h.desk.library.ListsBeside files [rom.bytes]) ∧
      ∃ h, start { rom := some rom, romDir := .ofString "." } console ⟨0, files⟩ = .ok h ∧
        ¬h.desk.library.ListsBeside files [rom.bytes] := by
  intro rom beside other dir files console
  have hf : files.WellFormed := by
    refine ⟨by decide, by decide, ?_, by decide⟩
    simp only [files, List.forall_mem_cons]
    exact ⟨rfl, rfl, rfl, rfl, by simp⟩
  have hread : files.read rom = .ok ⟨#[1]⟩ := rfl
  have hplace : files.locate rom = .ok [rom.bytes] := rfl
  have hbare (dir : Path) :=
    @Library.listsBeside_of_bare_iff files dir rom rom.bytes hf rfl (by decide) ⟨#[1]⟩ rfl hplace
  refine ⟨hf, hread, hplace, ?_, ?_⟩
  · let config : Config := { rom := some rom, romDir := dir }
    obtain ⟨h, hstart, hlibrary⟩ := @start_of_rom _ _ config ⟨0, files⟩ _ _ rfl hread console
    refine ⟨h, hstart, fun hlists ↦ ?_⟩
    rw [hlibrary] at hlists
    rcases (hbare _).mp hlists with ⟨hdir, -⟩ | ⟨hnone, -⟩
    · cases hdir
    · exact hnone [dir.bytes] other.bytes rfl ⟨⟨⟨#[3]⟩, rfl⟩, rfl⟩
  · let config : Config := { rom := some rom, romDir := .ofString "." }
    obtain ⟨h, hstart, hlibrary⟩ := @start_of_rom _ _ config ⟨0, files⟩ _ _ rfl hread console
    refine ⟨h, hstart, fun hlists ↦ ?_⟩
    rw [hlibrary] at hlists
    rcases (hbare _).mp hlists with ⟨-, hext⟩ | ⟨hnone, -⟩
    · cases hext
    · exact hnone [] rom.bytes rfl ⟨⟨⟨#[1]⟩, rfl⟩, rfl⟩

end Host

end CopyJump
