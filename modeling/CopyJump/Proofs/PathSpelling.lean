import Mathlib.Data.List.DropRight
import CopyJump.Proofs.PathLookup

namespace CopyJump

namespace Path

structure IsName (part : List UInt8) : Prop where
  busy : isIdle part = false
  ne_parent : part ≠ [dot, dot]
  no_slash : slash ∉ part

instance (part : List UInt8) : Decidable (IsName part) :=
  decidable_of_iff (isIdle part = false ∧ part ≠ [dot, dot] ∧ slash ∉ part)
    ⟨fun ⟨hbusy, hparent, hslash⟩ ↦ ⟨hbusy, hparent, hslash⟩,
      fun ⟨hbusy, hparent, hslash⟩ ↦ ⟨hbusy, hparent, hslash⟩⟩

theorem split_ne_nil (bs : List UInt8) : split bs ≠ [] := by
  cases bs with
  | nil => simp [split]
  | cons b bs =>
    rw [split]
    split
    · simp
    · split <;> simp

theorem split_cons {b : UInt8} (hb : b ≠ slash) {bs part : List UInt8} {parts : List (List UInt8)}
    (h : split bs = part :: parts) : split (b :: bs) = (b :: part) :: parts := by
  rw [split, if_neg hb, h]

theorem split_slash (bs : List UInt8) : split (slash :: bs) = [] :: split bs := by
  rw [split, if_pos rfl]

theorem split_append_slash (as bs : List UInt8) :
    split (as ++ slash :: bs) = split as ++ split bs := by
  induction as with
  | nil => exact split_slash bs
  | cons a as ih =>
    by_cases ha : a = slash
    · subst ha
      rw [List.cons_append, split_slash, split_slash, ih]
      rfl
    · obtain ⟨part, parts, hparts⟩ := List.exists_cons_of_ne_nil (split_ne_nil as)
      rw [hparts, List.cons_append] at ih
      rw [List.cons_append, split_cons ha ih, split_cons ha hparts]
      rfl

theorem split_of_no_slash {bs : List UInt8} (h : slash ∉ bs) : split bs = [bs] := by
  induction bs with
  | nil => rfl
  | cons b bs ih =>
    rw [List.mem_cons, not_or] at h
    exact split_cons (Ne.symm h.1) (ih h.2)

theorem no_slash_of_mem_split {bs part : List UInt8} (h : part ∈ split bs) : slash ∉ part := by
  induction bs generalizing part with
  | nil =>
    rw [split, List.mem_singleton] at h
    rw [h]
    exact List.not_mem_nil
  | cons b bs ih =>
    by_cases hb : b = slash
    · subst hb
      rw [split_slash, List.mem_cons] at h
      rcases h with rfl | h
      · exact List.not_mem_nil
      · exact ih h
    · obtain ⟨first, parts, hparts⟩ := List.exists_cons_of_ne_nil (split_ne_nil bs)
      rw [hparts] at ih
      rw [split_cons hb hparts, List.mem_cons] at h
      rcases h with rfl | h
      · rw [List.mem_cons, not_or]
        exact ⟨Ne.symm hb, ih List.mem_cons_self⟩
      · exact ih (List.mem_cons_of_mem _ h)

theorem split_joinParts {parts : List (List UInt8)} (hne : parts ≠ [])
    (h : ∀ part ∈ parts, slash ∉ part) : split (joinParts parts) = parts := by
  induction parts with
  | nil => exact absurd rfl hne
  | cons part parts ih =>
    rw [List.forall_mem_cons] at h
    cases parts with
    | nil => exact split_of_no_slash h.1
    | cons next parts =>
      rw [joinParts, split_append_slash, split_of_no_slash h.1, ih (by simp) h.2]
      · rfl
      · simp

variable {p dir : Path} {name : List UInt8}

theorem bytes_eq_of_parts (h : p.parts = [name]) : p.bytes = name := by
  have hslash : slash ∉ p.bytes := by
    intro hmem
    obtain ⟨as, bs, hbytes⟩ := List.append_of_mem hmem
    have hlen := congrArg List.length h
    rw [parts, hbytes, split_append_slash, List.length_append, List.length_singleton] at hlen
    have has := List.length_pos_iff.mpr (split_ne_nil as)
    have hbs := List.length_pos_iff.mpr (split_ne_nil bs)
    omega
  rw [parts, split_of_no_slash hslash] at h
  exact List.head_eq_of_cons_eq h

theorem isAbsolute_iff :
    p.isAbsolute = true ↔ p.bytes ≠ [] ∧ p.parts.head? = some [] := by
  obtain ⟨bs⟩ := p
  cases bs with
  | nil => simp [isAbsolute]
  | cons b bs =>
    by_cases hb : b = slash
    · subst hb
      simp [isAbsolute, parts, split_slash]
    · obtain ⟨part, rest, hparts⟩ := List.exists_cons_of_ne_nil (split_ne_nil bs)
      simp [isAbsolute, parts, split_cons hb hparts, hb]

theorem start_congr {p q : Path} (hp : p.bytes ≠ []) (hq : q.bytes ≠ [])
    (h : p.parts.head? = q.parts.head?) : p.start = q.start ∧ p.isAbsolute = q.isAbsolute := by
  have habsolute : p.isAbsolute = q.isAbsolute := by
    rw [Bool.eq_iff_iff, isAbsolute_iff, isAbsolute_iff, h]
    simp [hp, hq]
  rw [start, start, h, habsolute]
  exact ⟨rfl, rfl⟩

theorem components_ne_nil (h : p.bytes ≠ []) : p.components ≠ [] := by
  intro hnil
  obtain ⟨hstart, hnames⟩ := List.append_eq_nil_iff.mp hnil
  obtain ⟨first, rest, hparts⟩ := List.exists_cons_of_ne_nil (split_ne_nil p.bytes)
  have hidle : isIdle first = true := by
    have hall := List.filter_eq_nil_iff.mp (List.map_eq_nil_iff.mp hnames) first
    rw [parts, hparts] at hall
    simpa using hall List.mem_cons_self
  have hhead : p.parts.head? = some first := by rw [parts, hparts, List.head?_cons]
  unfold start at hstart
  split at hstart
  · cases hstart
  · next habsolute =>
    split at hstart
    · cases hstart
    · next hdot =>
      rw [hhead] at hdot
      rcases Bool.or_eq_true_iff.mp hidle with hempty | hone
      · rw [List.isEmpty_iff] at hempty
        subst hempty
        exact habsolute (isAbsolute_iff.mpr ⟨h, hhead⟩)
      · rw [beq_iff_eq] at hone
        exact hdot (congrArg some hone)

/-- A path that is a name behind a directory, but for idle parts at the end of the directory. -/
inductive Spells (p dir : Path) (name : List UInt8) : Prop
  | intro (init idle idle' : List (List UInt8)) (parts_eq : p.parts = init ++ idle ++ [name])
      (dir_eq : dir.parts = init ++ idle') (ne_nil : init ≠ []) (dir_ne_nil : dir.bytes ≠ [])
      (all_idle : ∀ part ∈ idle, isIdle part = true)
      (all_idle' : ∀ part ∈ idle', isIdle part = true)

theorem componentsOf_of_idle {idle : List (List UInt8)} (h : ∀ part ∈ idle, isIdle part = true) :
    componentsOf idle = [] := by
  have hnone : idle.filter (!isIdle ·) = [] := by
    rw [List.filter_eq_nil_iff]
    intro part hpart
    simp [h part hpart]
  rw [componentsOf, hnone, List.map_nil]

theorem componentsOf_name (h : IsName name) : componentsOf [name] = [.name name] := by
  have hpart : Component.ofPart name = .name name := if_neg h.ne_parent
  simp [componentsOf, h.busy, hpart]

namespace Spells

theorem dir_ne_nil (h : Spells p dir name) : dir.bytes ≠ [] := by
  obtain ⟨init, idle, idle', -, -, -, hdne, -⟩ := h
  exact hdne

theorem bytes_ne_nil (h : Spells p dir name) : p.bytes ≠ [] := by
  obtain ⟨init, idle, idle', hparts, -, hne, -⟩ := h
  intro hempty
  have hlen := congrArg List.length hparts
  have hpos := List.length_pos_iff.mpr hne
  rw [parts, hempty, List.length_append, List.length_append] at hlen
  simp only [split, List.length_singleton] at hlen
  omega

theorem start_eq (h : Spells p dir name) :
    p.start = dir.start ∧ p.isAbsolute = dir.isAbsolute := by
  have hp := h.bytes_ne_nil
  obtain ⟨init, idle, idle', hparts, hdir, hne, hdne, -⟩ := h
  apply start_congr hp hdne
  obtain ⟨first, init, rfl⟩ := List.exists_cons_of_ne_nil hne
  rw [hparts, hdir]
  rfl

theorem components_eq (h : Spells p dir name) (hname : IsName name) :
    p.components = dir.components ++ [.name name] := by
  have hstart := h.start_eq.1
  obtain ⟨init, idle, idle', hparts, hdir, -, -, hidle, hidle'⟩ := h
  change p.start ++ componentsOf p.parts = dir.start ++ componentsOf dir.parts ++ [.name name]
  rw [hstart, hparts, hdir, componentsOf_append, componentsOf_append, componentsOf_append,
    componentsOf_of_idle hidle, componentsOf_of_idle hidle', componentsOf_name hname,
    List.append_nil, List.append_assoc]

theorem fileName?_eq (h : Spells p dir name) (hname : IsName name) : p.fileName? = some name := by
  rw [fileName?, h.components_eq hname, List.getLast?_concat]

end Spells

theorem spells_child (hdir : dir.bytes ≠ []) (hname : slash ∉ name) :
    Spells (dir.child name) dir name := by
  by_cases hlast : dir.bytes.getLast? = some slash
  · obtain ⟨before, hbytes⟩ : ∃ before, dir.bytes = before ++ [slash] :=
      List.getLast?_eq_some_iff.mp hlast
    have hchild : dir.child name = ⟨before ++ slash :: name⟩ := by
      rw [child, if_pos (by simp [hlast]), hbytes, List.append_assoc]
      rfl
    refine ⟨split before, [], [[]], ?_, ?_, split_ne_nil _, hdir, by simp, by simp [isIdle]⟩
    · rw [hchild, parts, split_append_slash, split_of_no_slash hname, List.append_nil]
    · rw [parts, hbytes, split_append_slash]
      rfl
  · have hchild : dir.child name = ⟨dir.bytes ++ slash :: name⟩ := by
      rw [child, if_neg (by simp [hlast, hdir])]
    refine ⟨split dir.bytes, [], [], ?_, ?_, split_ne_nil _, hdir, by simp, by simp⟩
    · rw [hchild, parts, split_append_slash, split_of_no_slash hname, List.append_nil]
    · rw [List.append_nil, parts]

theorem getLast?_components {init : List (List UInt8)} (hparts : p.parts = init ++ [name])
    (hname : IsName name) : p.components.getLast? = some (.name name) := by
  change (p.start ++ componentsOf p.parts).getLast? = some (.name name)
  rw [hparts, componentsOf_append, componentsOf_name hname, ← List.append_assoc,
    List.getLast?_concat]

theorem not_isAbsolute_of_single (hparts : p.parts = [name]) (hname : IsName name) :
    p.isAbsolute ≠ true := by
  intro h
  have hhead := (isAbsolute_iff.mp h).2
  rw [hparts, List.head?_cons, Option.some_inj] at hhead
  subst hhead
  cases hname.busy

theorem components_of_single (hparts : p.parts = [name]) (hname : IsName name) :
    p.components = [.name name] := by
  have hdot : p.parts.head? ≠ some [dot] := by
    intro hhead
    rw [hparts, List.head?_cons, Option.some_inj] at hhead
    subst hhead
    cases hname.busy
  change p.start ++ componentsOf p.parts = [.name name]
  rw [start, if_neg (not_isAbsolute_of_single hparts hname), if_neg hdot, hparts,
    componentsOf_name hname, List.nil_append]

theorem parent?_of_single (hparts : p.parts = [name]) (hname : IsName name) :
    p.parent? = some ⟨[]⟩ := by
  have hlast : p.components.getLast? = some (.name name) :=
    @getLast?_components p name [] hparts hname
  rw [parent?, hlast, hparts]
  rfl

theorem parent?_of_cons {first : List UInt8} {mid : List (List UInt8)}
    (hparts : p.parts = first :: mid ++ [name]) (hname : IsName name) :
    p.parent? = if first = [] ∧ mid.rdropWhile isIdle = [] then some ⟨[slash]⟩
      else some ⟨joinParts (first :: mid.rdropWhile isIdle)⟩ := by
  have hdrop : (mid ++ [name]).reverse.dropWhile isIdle = name :: mid.reverse := by
    rw [List.reverse_concat, List.dropWhile_cons_of_neg (by simp [hname.busy])]
  have hlast := getLast?_components hparts hname
  rw [parent?, hlast, hparts, List.cons_append]
  dsimp only
  rw [hdrop]
  dsimp only
  rw [← List.rdropWhile]
  split
  · simp_all
  · split
    · simp_all
    · rfl

theorem parent?_of_name {init : List (List UInt8)} (hparts : p.parts = init ++ [name])
    (hname : IsName name) :
    init = [] ∧ p.parent? = some ⟨[]⟩ ∨ ∃ dir, p.parent? = some dir ∧ Spells p dir name := by
  cases init with
  | nil => exact .inl ⟨rfl, parent?_of_single hparts hname⟩
  | cons first mid =>
    right
    let kept := mid.rdropWhile isIdle
    let idle := mid.rtakeWhile isIdle
    have hidle : ∀ part ∈ idle, isIdle part = true := fun part ↦ List.mem_rtakeWhile_imp
    have hsplit : p.parts = first :: kept ++ idle ++ [name] := by
      have hmid : kept ++ idle = mid := List.rdropWhile_append_rtakeWhile
      rw [hparts, ← hmid]
      rfl
    rw [parent?_of_cons hparts hname]
    by_cases hroot : first = [] ∧ kept = []
    · obtain ⟨rfl, hkept⟩ := hroot
      rw [hkept] at hsplit
      refine ⟨⟨[slash]⟩, if_pos ⟨rfl, hkept⟩, ?_⟩
      exact ⟨[[]], idle, [[]], hsplit, rfl, by simp, by simp, hidle, by simp [isIdle]⟩
    · have hslash : ∀ part ∈ first :: kept, slash ∉ part := by
        intro part hpart
        have hmem : part ∈ split p.bytes := by
          rw [← parts, hsplit, List.append_assoc]
          exact List.mem_append_left _ hpart
        exact no_slash_of_mem_split hmem
      have hjoin : split (joinParts (first :: kept)) = first :: kept :=
        split_joinParts (by simp) hslash
      refine ⟨⟨joinParts (first :: kept)⟩, if_neg hroot, first :: kept, idle, [], hsplit, ?_,
        by simp, ?_, hidle, by simp⟩
      · rw [List.append_nil, parts, hjoin]
      · intro hempty
        dsimp only at hempty
        rw [hempty, split, eq_comm, List.cons.injEq] at hjoin
        exact hroot hjoin

end Path

end CopyJump
