import Mathlib.Data.List.Nodup
import CopyJump.Proofs.PathSpelling

namespace CopyJump

open CopyJump.Path

namespace FileTree

def Named (l : Location) : Prop := ∀ part ∈ l, IsName part

instance (l : Location) : Decidable (Named l) := inferInstanceAs (Decidable (∀ part ∈ l, _))

structure WellFormed (t : FileTree) : Prop where
  once : (t.entries.map (·.1)).Nodup
  named : ∀ e ∈ t.entries, Named e.1
  held : ∀ e ∈ t.entries, t.entry? e.1.tail = some .dir
  workDir : Named t.workDir

variable {t : FileTree} {l : Location} {entry : Entry}

theorem isFile_iff_leads {p : Path} :
    t.isFile p = true ↔ ∃ l data, t.locate p = .ok l ∧ t.entry? l = some (.file data) := by
  constructor
  · intro h
    obtain ⟨data, hread⟩ := isFile_iff.mp h
    obtain ⟨l, hl, hfile⟩ := read_eq_ok hread
    exact ⟨l, data, hl, hfile⟩
  · rintro ⟨l, data, hl, hfile⟩
    simp only [isFile, lookup, hl, bind, Except.bind, hfile]
    rfl

theorem isDir_iff {p : Path} (hl : t.locate p = .ok l) :
    t.isDir p = true ↔ t.entry? l = some .dir := by
  simp only [isDir, lookup, hl, bind, Except.bind]
  cases t.entry? l with
  | none => simp
  | some entry => cases entry <;> simp [pure, Except.pure]

theorem foldlM_cons_eq_ok {part : List UInt8} {parts : List (List UInt8)} {l' : Location} :
    (part :: parts).foldlM t.follow l = .ok l' ↔
      t.entry? l = some .dir ∧ parts.foldlM t.follow (turn l part) = .ok l' := by
  rw [List.foldlM_cons, follow]
  cases t.entry? l with
  | none => simp [bind, Except.bind]
  | some entry => cases entry <;> simp [bind, Except.bind]

theorem wellFormed_nil (h : Named l) : WellFormed ⟨l, []⟩ :=
  ⟨List.nodup_nil, by simp, by simp, h⟩

theorem mem_entries {data : ByteArray} (h : t.entry? l = some (.file data)) :
    (l, .file data) ∈ t.entries := by
  unfold entry? at h
  split at h
  · cases h
  · obtain ⟨⟨place, entry⟩, hfind, rfl⟩ := Option.map_eq_some_iff.mp h
    have hplace := List.find?_some hfind
    rw [beq_iff_eq] at hplace
    subst hplace
    exact List.mem_of_find?_eq_some hfind

theorem entry?_filter_of_ne {l' : Location} (h : l' ≠ l) :
    entry? { t with entries := t.entries.filter (·.1 != l) } l' = t.entry? l' := by
  have hfind : (t.entries.filter (·.1 != l)).find? (·.1 == l') =
      t.entries.find? (·.1 == l') := by
    rw [List.find?_filter]
    congr 1
    funext e
    by_cases he : e.1 = l'
    · simp [he, h]
    · simp [he]
  unfold entry?
  rw [hfind]

theorem entry?_set_of_ne {l' : Location} (h : l' ≠ l) :
    entry? (t.set l entry) l' = t.entry? l' := by
  rw [← @entry?_filter_of_ne t l l' h]
  unfold set entry?
  rw [List.find?_cons_of_neg (by simpa using h.symm)]

namespace WellFormed

theorem tail (h : t.WellFormed) (he : t.entry? l = some entry) : t.entry? l.tail = some .dir := by
  by_cases hl : l <:+ t.workDir
  · exact entry?_of_suffix ((List.tail_suffix l).trans hl)
  · unfold entry? at he
    rw [if_neg (by rwa [List.isSuffixOf_iff_suffix])] at he
    obtain ⟨⟨place, entry⟩, hfind, -⟩ := Option.map_eq_some_iff.mp he
    have hplace := List.find?_some hfind
    rw [beq_iff_eq] at hplace
    subst hplace
    exact h.held _ (List.mem_of_find?_eq_some hfind)

theorem isName (h : t.WellFormed) {name : List UInt8} (he : (name :: l, entry) ∈ t.entries) :
    IsName name := h.named _ he name List.mem_cons_self

theorem nodup_filter (h : t.WellFormed) (keep : Location × Entry → Bool) :
    ((t.entries.filter keep).map (·.1)).Nodup :=
  (List.filter_sublist.map _).nodup h.once

theorem set (h : t.WellFormed) (hl : Named l) (hdir : t.entry? l.tail = some .dir)
    (hfree : t.entry? l ≠ some .dir) (entry : Entry) : (t.set l entry).WellFormed := by
  refine ⟨?_, ?_, ?_, h.workDir⟩
  · refine List.nodup_cons.mpr ⟨?_, h.nodup_filter _⟩
    simp
  · intro e he
    rcases List.mem_cons.mp he with rfl | he
    · exact hl
    · exact h.named e (List.mem_of_mem_filter he)
  · have hother : ∀ l', t.entry? l' = some .dir → entry? (t.set l entry) l' = some .dir := by
      intro l' hl'
      rw [entry?_set_of_ne ?_, hl']
      rintro rfl
      exact hfree hl'
    intro e he
    rcases List.mem_cons.mp he with rfl | he
    · exact hother _ hdir
    · exact hother _ (h.held e (List.mem_of_mem_filter he))

end WellFormed

theorem named_turn {part : List UInt8} (hl : Named l) (hpart : slash ∉ part) :
    Named (turn l part) := by
  unfold turn
  split
  · exact hl
  · next hbusy =>
    split
    · exact fun part hmem ↦ hl part (List.mem_of_mem_tail hmem)
    · next hparent =>
      have hname : IsName part := ⟨by simpa using hbusy, hparent, hpart⟩
      exact List.forall_mem_cons.mpr ⟨hname, hl⟩

theorem named_base (h : t.WellFormed) (p : Path) : Named (t.base p) := by
  unfold base
  split
  · exact fun part hmem ↦ absurd hmem List.not_mem_nil
  · exact h.workDir

theorem named_followAll {parts : List (List UInt8)} {l l' : Location} (hl : Named l)
    (hparts : ∀ part ∈ parts, slash ∉ part) (h : parts.foldlM t.follow l = .ok l') :
    Named l' := by
  induction parts generalizing l with
  | nil =>
    cases h
    exact hl
  | cons part parts ih =>
    rw [List.forall_mem_cons] at hparts
    exact ih (named_turn hl hparts.1) hparts.2 (foldlM_cons_eq_ok.mp h).2

theorem named_locate (h : t.WellFormed) {p : Path} (hp : t.locate p = .ok l) : Named l := by
  unfold locate at hp
  split at hp
  · cases hp
  · exact named_followAll (named_base h p) (fun part ↦ no_slash_of_mem_split) hp

namespace WellFormed

theorem enter (h : t.WellFormed) (hl : Named l) {part : List UInt8} (hpart : slash ∉ part)
    {t' : FileTree} {l' : Location} (he : FileTree.enter (t, l) part = .ok (t', l')) :
    t'.WellFormed ∧ Named l' := by
  simp only [FileTree.enter, bind, Except.bind] at he
  cases hf : t.follow l part with
  | error fault =>
    rw [hf] at he
    cases he
  | ok l₁ =>
    obtain ⟨hdir, rfl⟩ := follow_eq_ok hf
    have hnamed := named_turn hl hpart
    rw [hf] at he
    dsimp only at he
    split at he
    · cases he
      exact ⟨h, hnamed⟩
    · next hnone =>
      cases he
      refine ⟨h.set hnamed ?_ (by simp [hnone]) .dir, hnamed⟩
      -- nothing is there, so the part led neither back here nor up
      unfold turn at hnone ⊢
      split at hnone
      · rw [hdir] at hnone
        cases hnone
      · split at hnone
        · rw [h.tail hdir] at hnone
          cases hnone
        · next hbusy hparent =>
          rw [if_neg hbusy, if_neg hparent]
          exact hdir

theorem enterAll (h : t.WellFormed) (hl : Named l) {parts : List (List UInt8)}
    (hparts : ∀ part ∈ parts, slash ∉ part) {t' : FileTree} {l' : Location}
    (he : parts.foldlM FileTree.enter (t, l) = .ok (t', l')) : t'.WellFormed := by
  induction parts generalizing t l with
  | nil =>
    cases he
    exact h
  | cons part parts ih =>
    rw [List.forall_mem_cons] at hparts
    rw [List.foldlM_cons] at he
    cases hone : FileTree.enter (t, l) part with
    | error fault =>
      rw [hone] at he
      cases he
    | ok way =>
      rw [hone] at he
      obtain ⟨h₁, hl₁⟩ := h.enter hl hparts.1 hone
      exact ih h₁ hl₁ hparts.2 he

theorem putDir (h : t.WellFormed) (p : Path) : (t.putDir p).WellFormed := by
  unfold FileTree.putDir
  split
  · next t' l' hmake =>
    exact h.enterAll (named_base h p) (fun part ↦ no_slash_of_mem_split) hmake
  · exact h

theorem putFile (h : t.WellFormed) (p : Path) (data : ByteArray) :
    (t.putFile p data).WellFormed := by
  have h₁ := h.putDir (p.parent?.getD p)
  unfold FileTree.putFile
  generalize t.putDir (p.parent?.getD p) = t₁ at h₁
  dsimp only
  split
  · next l hl =>
    split
    · exact h₁
    · next hdir =>
      rw [isDir_iff hl] at hdir
      exact h₁.set (named_locate h₁ hl) ((leads_of_locate hl).above _ List.suffix_rfl) hdir _
  · exact h₁

theorem remove (h : t.WellFormed) (p : Path) : (t.remove p).WellFormed := by
  unfold FileTree.remove
  split
  · next l hl =>
    split
    · next hfile =>
      refine ⟨h.nodup_filter _, fun e he ↦ h.named e (List.mem_of_mem_filter he), ?_, h.workDir⟩
      intro e he
      have hheld := h.held e (List.mem_of_mem_filter he)
      rw [entry?_filter_of_ne ?_, hheld]
      rintro rfl
      obtain ⟨l', data, hl', hentry⟩ := isFile_iff_leads.mp hfile
      cases hl.symm.trans hl'
      rw [hheld] at hentry
      cases hentry
    · exact h
  · exact h

end WellFormed

section Following

variable {parts : List (List UInt8)} {p dir : Path} {name : List UInt8} {l' : Location}

theorem bytes_ne_nil_of_locate (h : t.locate p = .ok l) : p.bytes ≠ [] := by
  intro hempty
  rw [locate, hempty] at h
  cases h

theorem locate_eq (h : p.bytes ≠ []) : t.locate p = p.parts.foldlM t.follow (t.base p) := by
  rw [locate, if_neg (by simpa using h)]

theorem foldlM_append_eq_ok {parts' : List (List UInt8)} :
    (parts ++ parts').foldlM t.follow l = .ok l' ↔
      ∃ d, parts.foldlM t.follow l = .ok d ∧ parts'.foldlM t.follow d = .ok l' := by
  rw [List.foldlM_append]
  cases h : parts.foldlM t.follow l with
  | error fault => simp [bind, Except.bind]
  | ok d => simp [bind, Except.bind]

theorem foldlM_single_eq_ok :
    [name].foldlM t.follow l = .ok l' ↔ t.entry? l = some .dir ∧ turn l name = l' := by
  rw [foldlM_cons_eq_ok, List.foldlM_nil]
  simp only [pure, Except.pure, Except.ok.injEq]

theorem turn_of_idle (h : isIdle name = true) : turn l name = l := if_pos h

theorem turn_of_name (h : IsName name) : turn l name = name :: l := by
  rw [turn, if_neg (by simp [h.busy]), if_neg h.ne_parent]

theorem eq_of_followed_idle {idle : List (List UInt8)} (hidle : ∀ part ∈ idle, isIdle part = true)
    (h : idle.foldlM t.follow l = .ok l') : l' = l := by
  induction idle generalizing l with
  | nil =>
    cases h
    rfl
  | cons part idle ih =>
    rw [List.forall_mem_cons] at hidle
    rw [ih hidle.2 (foldlM_cons_eq_ok.mp h).2, turn_of_idle hidle.1]

theorem followed_idle {idle : List (List UInt8)} (hidle : ∀ part ∈ idle, isIdle part = true)
    (hdir : t.entry? l = some .dir) : idle.foldlM t.follow l = .ok l := by
  induction idle with
  | nil => rfl
  | cons part idle ih =>
    rw [List.forall_mem_cons] at hidle
    rw [foldlM_cons_eq_ok, turn_of_idle hidle.1]
    exact ⟨hdir, ih hidle.2⟩

theorem locate_of_spells (h : Spells p dir name) (hname : IsName name) :
    t.locate p = .ok l ↔ ∃ d, t.locate dir = .ok d ∧ t.entry? d = some .dir ∧ l = name :: d := by
  have hbase : t.base p = t.base dir := by rw [base, base, h.start_eq.2]
  have hp := h.bytes_ne_nil
  obtain ⟨init, idle, idle', hparts, hdir, -, hdne, hidle, hidle'⟩ := h
  rw [locate_eq hp, locate_eq hdne, hparts, hdir, hbase, foldlM_append_eq_ok]
  constructor
  · rintro ⟨d, hd, hlast⟩
    obtain ⟨d', hinit, hd⟩ := foldlM_append_eq_ok.mp hd
    obtain rfl := eq_of_followed_idle hidle hd
    obtain ⟨hentry, rfl⟩ := foldlM_single_eq_ok.mp hlast
    exact ⟨d, foldlM_append_eq_ok.mpr ⟨d, hinit, followed_idle hidle' hentry⟩, hentry,
      turn_of_name hname⟩
  · rintro ⟨d, hd, hentry, rfl⟩
    obtain ⟨d', hinit, hd⟩ := foldlM_append_eq_ok.mp hd
    obtain rfl := eq_of_followed_idle hidle' hd
    exact ⟨d, foldlM_append_eq_ok.mpr ⟨d, hinit, followed_idle hidle hentry⟩,
      foldlM_single_eq_ok.mpr ⟨hentry, turn_of_name hname⟩⟩

theorem parts_of_file {data : ByteArray} (hl : t.locate p = .ok l)
    (hfile : t.entry? l = some (.file data)) :
    ∃ init name d, p.parts = init ++ [name] ∧ IsName name ∧ l = name :: d ∧
      init.foldlM t.follow (t.base p) = .ok d := by
  have hp := bytes_ne_nil_of_locate hl
  obtain ⟨init, name, hparts⟩ := (List.eq_nil_or_concat' _).resolve_left (split_ne_nil p.bytes)
  rw [locate_eq hp, parts, hparts] at hl
  obtain ⟨d, hd, hlast⟩ := foldlM_append_eq_ok.mp hl
  obtain ⟨hdir, rfl⟩ := foldlM_single_eq_ok.mp hlast
  have hbusy : isIdle name = false := by
    by_contra hidle
    rw [Bool.not_eq_false] at hidle
    rw [turn_of_idle hidle, hdir] at hfile
    cases hfile
  have hparent : name ≠ [dot, dot] := by
    rintro rfl
    have habove := ((leads_start t p).followAll hd).above _ List.suffix_rfl
    have hturn : turn d [dot, dot] = d.tail := rfl
    rw [hturn, habove] at hfile
    cases hfile
  have hslash : slash ∉ name := by
    apply no_slash_of_mem_split
    rw [hparts]
    exact List.mem_append_right _ (List.mem_singleton_self name)
  have hname : IsName name := ⟨hbusy, hparent, hslash⟩
  exact ⟨init, name, d, hparts, hname, turn_of_name hname, hd⟩

end Following

theorem mem_namesAt {name : List UInt8} :
    name ∈ t.namesAt l ↔ ∃ entry, (name :: l, entry) ∈ t.entries := by
  simp only [namesAt, List.mem_filterMap]
  constructor
  · rintro ⟨⟨place, entry⟩, he, hname⟩
    cases place with
    | nil => cases hname
    | cons first above =>
      dsimp only at hname
      split at hname
      · next habove =>
        cases hname
        exact ⟨entry, habove ▸ he⟩
      · cases hname
  · rintro ⟨entry, he⟩
    exact ⟨_, he, if_pos rfl⟩

theorem namesAt_sublist (t : FileTree) (l : Location) :
    ((t.namesAt l).map (· :: l)).Sublist (t.entries.map (·.1)) := by
  obtain ⟨workDir, entries⟩ := t
  induction entries with
  | nil => exact .refl _
  | cons e entries ih =>
    obtain ⟨place, entry⟩ := e
    unfold namesAt at ih ⊢
    rw [List.filterMap_cons, List.map_cons]
    cases place with
    | nil => exact ih.cons _
    | cons name above =>
      dsimp only
      by_cases habove : above = l
      · rw [if_pos habove, List.map_cons, habove]
        exact ih.cons_cons _
      · rw [if_neg habove]
        exact ih.cons _

theorem WellFormed.nodup_namesAt (h : t.WellFormed) (l : Location) : (t.namesAt l).Nodup :=
  List.Nodup.of_map _ ((namesAt_sublist t l).nodup h.once)

end FileTree

end CopyJump
