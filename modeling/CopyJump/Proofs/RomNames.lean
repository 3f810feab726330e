import CopyJump.Proofs.PathSpelling
import Mathlib.Data.List.Forall2

namespace CopyJump

namespace Path

/-- What does not count behind a name: slashes, and single dots between them. -/
inductive Trailing : List UInt8 → Prop
  | empty : Trailing []
  | slash {rest : List UInt8} (h : Trailing rest) : Trailing (Path.slash :: rest)
  | current {rest : List UInt8} (h : Trailing rest) : Trailing (Path.slash :: dot :: rest)

def Opens (before : List UInt8) : Prop := before = [] ∨ before.getLast? = some slash

/-- The last component of a path is an ordinary name. -/
def EndsIn (p : Path) (name : List UInt8) : Prop :=
  IsName name ∧ ∃ before trailing,
    p.bytes = before ++ name ++ trailing ∧ Opens before ∧ Trailing trailing

/-- The same byte, but for the case of an ASCII letter. -/
inductive SameLetter : UInt8 → UInt8 → Prop
  | refl (b : UInt8) : SameLetter b b
  | lower {b : UInt8} (hlo : 0x41 ≤ b) (hhi : b ≤ 0x5A) : SameLetter b (b + 0x20)
  | upper {b : UInt8} (hlo : 0x41 ≤ b) (hhi : b ≤ 0x5A) : SameLetter (b + 0x20) b

def IsRomExtension (ext : List UInt8) : Prop :=
  ∃ s ∈ ["bytepusher", "bp"], List.Forall₂ SameLetter ext (ofString s).bytes

section Parts

theorem Trailing.split_append {trailing : List UInt8} (h : Trailing trailing) (bs : List UInt8) :
    ∃ idle, split (bs ++ trailing) = split bs ++ idle ∧ ∀ part ∈ idle, isIdle part = true := by
  induction h generalizing bs with
  | empty => exact ⟨[], by simp, by simp⟩
  | @slash rest _ ih =>
    obtain ⟨idle, hsplit, hidle⟩ := ih []
    refine ⟨[] :: idle, ?_, List.forall_mem_cons.mpr ⟨rfl, hidle⟩⟩
    rw [split_append_slash]
    exact congrArg (split bs ++ ·) hsplit
  | @current rest _ ih =>
    obtain ⟨idle, hsplit, hidle⟩ := ih [dot]
    refine ⟨[dot] :: idle, ?_, List.forall_mem_cons.mpr ⟨rfl, hidle⟩⟩
    rw [split_append_slash]
    exact congrArg (split bs ++ ·) hsplit

theorem trailing_of_idle {idle : List (List UInt8)} (h : ∀ part ∈ idle, isIdle part = true) :
    Trailing (idle.flatMap (slash :: ·)) := by
  induction idle with
  | nil => exact .empty
  | cons part idle ih =>
    rw [List.forall_mem_cons] at h
    have hrest := ih h.2
    rcases Bool.or_eq_true_iff.mp h.1 with hempty | hdot
    · rw [List.isEmpty_iff] at hempty
      subst hempty
      exact .slash hrest
    · rw [beq_iff_eq] at hdot
      subst hdot
      exact .current hrest

theorem joinParts_cons (part : List UInt8) (parts : List (List UInt8)) :
    joinParts (part :: parts) = part ++ parts.flatMap (slash :: ·) := by
  induction parts generalizing part with
  | nil => simp [joinParts]
  | cons next parts ih =>
    rw [joinParts, ih, List.flatMap_cons, List.cons_append]
    exact List.cons_ne_nil _ _

theorem joinParts_split (bs : List UInt8) : joinParts (split bs) = bs := by
  induction bs with
  | nil => rfl
  | cons b bs ih =>
    obtain ⟨part, parts, hparts⟩ := List.exists_cons_of_ne_nil (split_ne_nil bs)
    rw [hparts, joinParts_cons] at ih
    by_cases hb : b = slash
    · subst hb
      rw [split_slash, hparts, joinParts_cons, List.flatMap_cons, List.nil_append, List.cons_append,
        ih]
    · rw [split_cons hb hparts, joinParts_cons, List.cons_append, ih]

theorem getLast?_filter_eq_some_iff {α : Type} {f : α → Bool} {as : List α} {a : α} :
    (as.filter f).getLast? = some a ↔
      f a = true ∧ ∃ before after, as = before ++ a :: after ∧ ∀ b ∈ after, f b = false := by
  rw [List.getLast?_filter, List.find?_eq_some_iff_append]
  refine and_congr_right fun _ ↦ ?_
  constructor
  · rintro ⟨after, before, has, hafter⟩
    refine ⟨before.reverse, after.reverse, ?_, by simpa using hafter⟩
    simpa using congrArg List.reverse has
  · rintro ⟨before, after, rfl, hafter⟩
    exact ⟨after.reverse, before.reverse, by simp, by simpa using hafter⟩

end Parts

variable {p : Path} {name : List UInt8}

theorem fileName?_eq_some_iff :
    p.fileName? = some name ↔ p.components.getLast? = some (.name name) := by
  unfold fileName?
  split
  · next bs hlast => simp [hlast]
  · next hother =>
    constructor
    · nofun
    · exact fun h ↦ absurd h (hother name)

theorem getLast?_components_eq_name_iff :
    p.components.getLast? = some (.name name) ↔
      (p.parts.filter (!isIdle ·)).getLast? = some name ∧ name ≠ [dot, dot] := by
  rw [components, List.getLast?_append, List.getLast?_map]
  cases (p.parts.filter (!isIdle ·)).getLast? with
  | none =>
    have hstart : p.start.getLast? ≠ some (.name name) := by
      unfold start
      split
      · simp
      · split <;> simp
    simpa using hstart
  | some part =>
    rw [Option.map_some, Option.some_or, Option.some_inj, Component.ofPart]
    split
    · next hparent => simp [hparent, eq_comm]
    · next hparent =>
      rw [Component.name.injEq, Option.some_inj]
      exact ⟨fun h ↦ ⟨h, h ▸ hparent⟩, And.left⟩

theorem exists_split_append {before part : List UInt8} (hbefore : Opens before)
    (hslash : slash ∉ part) : ∃ init, split (before ++ part) = init ++ [part] := by
  rcases hbefore with rfl | hlast
  · exact ⟨[], split_of_no_slash hslash⟩
  · obtain ⟨init, rfl⟩ := List.getLast?_eq_some_iff.mp hlast
    refine ⟨split init, ?_⟩
    rw [List.append_assoc, List.singleton_append, split_append_slash, split_of_no_slash hslash]

theorem getLast?_filter_parts {before part trailing : List UInt8} (hbefore : Opens before)
    (hslash : slash ∉ part) (hbusy : isIdle part = false) (htrailing : Trailing trailing) :
    ((parts ⟨before ++ part ++ trailing⟩).filter (!isIdle ·)).getLast? = some part := by
  obtain ⟨idle, hsplit, hidle⟩ := htrailing.split_append (before ++ part)
  obtain ⟨init, hinit⟩ := exists_split_append hbefore hslash
  rw [getLast?_filter_eq_some_iff]
  refine ⟨by simp [hbusy], init, idle, ?_, by simpa using hidle⟩
  rw [parts, hsplit, hinit, List.append_assoc, List.singleton_append]

theorem endsIn_iff : p.EndsIn name ↔ p.components.getLast? = some (.name name) := by
  rw [getLast?_components_eq_name_iff]
  constructor
  · rintro ⟨hname, before, trailing, hbytes, hbefore, htrailing⟩
    refine ⟨?_, hname.ne_parent⟩
    rw [parts, hbytes]
    exact getLast?_filter_parts hbefore hname.no_slash hname.busy htrailing
  · rintro ⟨hlast, hparent⟩
    obtain ⟨hbusy, init, idle, hparts, hidle⟩ := getLast?_filter_eq_some_iff.mp hlast
    have hmem : name ∈ split p.bytes := by
      rw [← parts, hparts]
      exact List.mem_append_right _ List.mem_cons_self
    refine ⟨⟨by simpa using hbusy, hparent, no_slash_of_mem_split hmem⟩, ?_⟩
    have htrailing : Trailing (idle.flatMap (slash :: ·)) :=
      trailing_of_idle (by simpa using hidle)
    have hbytes : p.bytes = joinParts (init ++ name :: idle) := by
      rw [← hparts, parts, joinParts_split]
    cases init with
    | nil =>
      refine ⟨[], _, ?_, .inl rfl, htrailing⟩
      rw [hbytes, List.nil_append, joinParts_cons, List.nil_append]
    | cons first init =>
      refine ⟨first ++ init.flatMap (slash :: ·) ++ [slash], _, ?_, .inr ?_, htrailing⟩
      · rw [hbytes, List.cons_append, joinParts_cons]
        simp
      · rw [List.getLast?_concat]

theorem takeWhile_reverse_of_not_mem {stem ext : List UInt8} (hdot : dot ∉ ext) :
    (stem ++ dot :: ext).reverse.takeWhile (· ≠ dot) = ext.reverse := by
  have hext : ∀ b ∈ ext.reverse, decide (b ≠ dot) = true := by
    intro b hb
    rw [decide_eq_true_iff]
    rintro rfl
    exact hdot (List.mem_reverse.mp hb)
  rw [List.reverse_append, List.reverse_cons, List.append_assoc,
    List.takeWhile_append_of_pos hext, List.singleton_append,
    List.takeWhile_cons_of_neg (by simp), List.append_nil]

theorem extension?_eq_some_iff {ext : List UInt8} :
    extension? name = some ext ↔ ∃ stem, name = stem ++ dot :: ext ∧ stem ≠ [] ∧ dot ∉ ext := by
  unfold extension?
  constructor
  · intro h
    dsimp only at h
    split at h
    · next hlong =>
      obtain rfl := Option.some.inj h
      have hsplit : name.rdropWhile (· ≠ dot) ++ name.rtakeWhile (· ≠ dot) = name :=
        List.rdropWhile_append_rtakeWhile
      have hlength := congrArg List.length hsplit
      rw [List.length_append, List.rtakeWhile, List.length_reverse] at hlength
      have hne : name.rdropWhile (· ≠ dot) ≠ [] := by
        rintro hnil
        rw [hnil, List.length_nil] at hlength
        omega
      have hlast : (name.rdropWhile (· ≠ dot)).getLast? = some dot := by
        rw [List.getLast?_eq_some_getLast hne, Option.some_inj]
        simpa using List.rdropWhile_last_not _ _ hne
      obtain ⟨stem, hstem⟩ := List.getLast?_eq_some_iff.mp hlast
      refine ⟨stem, ?_, ?_, ?_⟩
      · rw [hstem, List.append_assoc, List.singleton_append] at hsplit
        exact hsplit.symm
      · rintro rfl
        rw [hstem, List.nil_append, List.length_singleton] at hlength
        omega
      · intro hmem
        simpa using List.mem_takeWhile_imp (List.mem_reverse.mp hmem)
    · cases h
  · rintro ⟨stem, rfl, hstem, hdot⟩
    have hpos := List.length_pos_iff.mpr hstem
    simp only [takeWhile_reverse_of_not_mem hdot, List.reverse_reverse, List.length_reverse,
      List.length_append, List.length_cons]
    rw [if_pos (by omega)]

theorem toNat_add_case {b : UInt8} (hhi : b ≤ 0x5A) : (b + 0x20).toNat = b.toNat + 0x20 := by
  have hle : b.toNat ≤ 0x5A := UInt8.le_iff_toNat_le.mp hhi
  rw [UInt8.toNat_add]
  exact Nat.mod_eq_of_lt (by show b.toNat + 0x20 < 256; omega)

theorem lower_of_upper {b : UInt8} (hlo : 0x41 ≤ b) (hhi : b ≤ 0x5A) : lower b = b + 0x20 := by
  rw [lower, if_pos (by simp [hlo, hhi])]

theorem lower_add_case {b : UInt8} (hlo : 0x41 ≤ b) (hhi : b ≤ 0x5A) :
    lower (b + 0x20) = b + 0x20 := by
  have hle : (0x41 : UInt8).toNat ≤ b.toNat := UInt8.le_iff_toNat_le.mp hlo
  have hlarge : ¬b + 0x20 ≤ 0x5A := by
    rw [UInt8.le_iff_toNat_le, toNat_add_case hhi]
    show ¬b.toNat + 0x20 ≤ 0x5A
    change 0x41 ≤ b.toNat at hle
    omega
  rw [lower, if_neg (by simp [hlarge])]

theorem lower_eq_iff {b c : UInt8} : lower b = lower c ↔ SameLetter b c := by
  constructor
  · intro h
    unfold lower at h
    simp only [Bool.and_eq_true, decide_eq_true_iff] at h
    split_ifs at h with hb hc hc
    · obtain rfl := (UInt8.add_left_inj _).mp h
      exact .refl b
    · exact h ▸ .lower hb.1 hb.2
    · exact h ▸ .upper hc.1 hc.2
    · exact h ▸ .refl b
  · rintro (_ | ⟨hlo, hhi⟩ | ⟨hlo, hhi⟩)
    · rfl
    · rw [lower_of_upper hlo hhi, lower_add_case hlo hhi]
    · rw [lower_of_upper hlo hhi, lower_add_case hlo hhi]

theorem eq_of_lower_eq {b c : UInt8} (hc : c < 0x41) (h : lower b = c) : b = c := by
  unfold lower at h
  split at h
  · next hupper =>
    simp only [Bool.and_eq_true, decide_eq_true_iff] at hupper
    have hlo : 0x41 ≤ b.toNat := UInt8.le_iff_toNat_le.mp hupper.1
    have hlt : c.toNat < 0x41 := UInt8.lt_iff_toNat_lt.mp hc
    rw [← h, toNat_add_case hupper.2] at hlt
    omega
  · exact h

theorem forall₂_sameLetter_iff {bs cs : List UInt8} :
    List.Forall₂ SameLetter bs cs ↔ bs.map lower = cs.map lower := by
  rw [← List.forall₂_eq_eq_eq, List.forall₂_map_left_iff, List.forall₂_map_right_iff]
  simp only [lower_eq_iff]

theorem not_mem_of_sameLetter {bs cs : List UInt8} (h : List.Forall₂ SameLetter bs cs) {c : UInt8}
    (hc : c < 0x41) (hbs : c ∉ bs) : c ∉ cs := by
  intro hcs
  have hmem := List.mem_map_of_mem (f := lower) hcs
  rw [← forall₂_sameLetter_iff.mp h, List.mem_map] at hmem
  obtain ⟨b, hb, heq⟩ := hmem
  have hlower : lower c = c := if_neg (by simp [UInt8.not_le.mpr hc])
  exact hbs (eq_of_lower_eq hc (heq.trans hlower) ▸ hb)

theorem contains_romExtensions_iff {ext : List UInt8} :
    romExtensions.contains (ext.map lower) = true ↔ IsRomExtension ext := by
  have hlower : ∀ s ∈ ["bytepusher", "bp"], (ofString s).bytes.map lower = (ofString s).bytes := by
    decide
  rw [List.contains_iff_mem, romExtensions, List.mem_map]
  constructor
  · rintro ⟨s, hs, heq⟩
    exact ⟨s, hs, forall₂_sameLetter_iff.mpr (heq.symm.trans (hlower s hs).symm)⟩
  · rintro ⟨s, hs, hsame⟩
    exact ⟨s, hs, ((forall₂_sameLetter_iff.mp hsame).trans (hlower s hs)).symm⟩

theorem isRom_iff_of_fileName? (h : p.fileName? = some name) :
    p.isRom = true ↔ ∃ stem ext, name = stem ++ dot :: ext ∧ stem ≠ [] ∧ dot ∉ ext ∧
      IsRomExtension ext := by
  rw [isRom, h, Option.bind_some]
  constructor
  · intro hrom
    split at hrom
    · next ext hext =>
      obtain ⟨stem, hname, hstem, hdot⟩ := extension?_eq_some_iff.mp hext
      exact ⟨stem, ext, hname, hstem, hdot, contains_romExtensions_iff.mp hrom⟩
    · cases hrom
  · rintro ⟨stem, ext, hname, hstem, hdot, hrom⟩
    rw [extension?_eq_some_iff.mpr ⟨stem, hname, hstem, hdot⟩]
    exact contains_romExtensions_iff.mpr hrom

theorem isRom_iff :
    p.isRom = true ↔ ∃ stem ext, p.EndsIn (stem ++ dot :: ext) ∧ stem ≠ [] ∧ dot ∉ ext ∧
      IsRomExtension ext := by
  constructor
  · intro hrom
    cases hname : p.fileName? with
    | none =>
      rw [isRom, hname] at hrom
      cases hrom
    | some name =>
      obtain ⟨stem, ext, rfl, hrest⟩ := (isRom_iff_of_fileName? hname).mp hrom
      exact ⟨stem, ext, endsIn_iff.mpr (fileName?_eq_some_iff.mp hname), hrest⟩
  · rintro ⟨stem, ext, hname, hrest⟩
    have hfile := fileName?_eq_some_iff.mpr (endsIn_iff.mp hname)
    exact (isRom_iff_of_fileName? hfile).mpr ⟨stem, ext, rfl, hrest⟩

section Extensions

variable {ext ext' : List UInt8}

theorem IsRomExtension.ne_nil (h : IsRomExtension ext) : ext ≠ [] := by
  rintro rfl
  obtain ⟨s, hs, hsame⟩ := h
  have hfilled : ∀ s ∈ ["bytepusher", "bp"], (ofString s).bytes ≠ [] := by decide
  exact hfilled s hs (List.forall₂_nil_left_iff.mp hsame)

theorem isRomExtension_congr (h : List.Forall₂ SameLetter ext ext') :
    IsRomExtension ext ↔ IsRomExtension ext' := by
  rw [← contains_romExtensions_iff, forall₂_sameLetter_iff.mp h, contains_romExtensions_iff]

theorem bytes_ofString_ofList (cs : List Char) :
    (ofString (String.ofList cs)).bytes = cs.flatMap String.utf8EncodeChar := by
  show (String.ofList cs).toByteArray.data.toList = _
  rw [String.toByteArray_ofList, List.utf8Encode, List.data_toByteArray]

theorem exists_ofString_of_ascii {bs : List UInt8} (h : ∀ b ∈ bs, b < 0x80) :
    ∃ s, (ofString s).bytes = bs := by
  refine ⟨String.ofList (bs.map Char.ofUInt8), ?_⟩
  have hchar : ∀ b ∈ bs, String.utf8EncodeChar (Char.ofUInt8 b) = [b] := by
    intro b hb
    have hsize : (Char.ofUInt8 b).utf8Size = 1 := by
      have hlt : b.toNat < 128 := UInt8.lt_iff_toNat_lt.mp (h b hb)
      rw [Char.utf8Size_eq_one_iff, UInt32.le_iff_toNat_le]
      show b.toUInt32.toNat ≤ 127
      rw [UInt8.toNat_toUInt32]
      omega
    rw [String.utf8EncodeChar_eq_singleton hsize]
    show [b.toUInt32.toNat.toUInt8] = [b]
    simp
  rw [bytes_ofString_ofList, List.flatMap_map, List.flatMap_def, List.map_congr_left hchar]
  exact List.flatMap_singleton' bs

theorem lt_of_lower_lt {b : UInt8} (h : lower b < 0x80) : b < 0x80 := by
  unfold lower at h
  split at h
  · next hupper =>
    simp only [Bool.and_eq_true, decide_eq_true_iff] at hupper
    exact UInt8.lt_of_le_of_lt hupper.2 (by decide)
  · exact h

theorem IsRomExtension.exists_ofString (h : IsRomExtension ext) : ∃ s, (ofString s).bytes = ext := by
  obtain ⟨s, hs, hsame⟩ := h
  have hascii : ∀ s ∈ ["bytepusher", "bp"], ∀ b ∈ (ofString s).bytes.map lower, b < 0x80 := by
    decide +kernel
  apply exists_ofString_of_ascii
  intro b hb
  apply lt_of_lower_lt
  apply hascii s hs
  rw [← forall₂_sameLetter_iff.mp hsame]
  exact List.mem_map_of_mem hb

end Extensions

theorem isRom_congr {q : Path} (h : (p.parts.filter (!isIdle ·)).getLast? =
    (q.parts.filter (!isIdle ·)).getLast?) : p.isRom = q.isRom := by
  have hname : p.fileName? = q.fileName? := by
    apply Option.ext
    intro name
    rw [fileName?_eq_some_iff, fileName?_eq_some_iff, getLast?_components_eq_name_iff,
      getLast?_components_eq_name_iff, h]
  rw [isRom, isRom, hname]

theorem isRom_append_trailing {trailing : List UInt8} (h : Trailing trailing) :
    isRom ⟨p.bytes ++ trailing⟩ = p.isRom := by
  apply isRom_congr
  obtain ⟨idle, hsplit, hidle⟩ := h.split_append p.bytes
  have hnone : idle.filter (!isIdle ·) = [] := by
    rw [List.filter_eq_nil_iff]
    intro part hpart
    simp [hidle part hpart]
  rw [parts, hsplit, List.filter_append, hnone, List.append_nil, parts]

theorem isRom_behind_dir (h : p.EndsIn name) (dir : List UInt8) :
    isRom ⟨dir ++ slash :: p.bytes⟩ = p.isRom := by
  apply isRom_congr
  obtain ⟨hlast, -⟩ := getLast?_components_eq_name_iff.mp (endsIn_iff.mp h)
  rw [parts] at hlast ⊢
  rw [split_append_slash, List.filter_append, List.getLast?_append, hlast, Option.some_or, parts,
    hlast]

section LastPart

variable {before part trailing front ext ext' : List UInt8}

theorem isRom_iff_of_last_part (hbefore : Opens before) (hslash : slash ∉ part)
    (hbusy : isIdle part = false) (htrailing : Trailing trailing) :
    isRom ⟨before ++ part ++ trailing⟩ = true ↔
      ∃ stem ext, part = stem ++ dot :: ext ∧ stem ≠ [] ∧ dot ∉ ext ∧ IsRomExtension ext := by
  rw [isRom_iff]
  constructor
  · rintro ⟨stem, ext, hname, hrest⟩
    obtain ⟨hlast, -⟩ := getLast?_components_eq_name_iff.mp (endsIn_iff.mp hname)
    rw [getLast?_filter_parts hbefore hslash hbusy htrailing, Option.some_inj] at hlast
    exact ⟨stem, ext, hlast, hrest⟩
  · rintro ⟨stem, ext, rfl, hstem, hdot, hrom⟩
    have hparent : stem ++ dot :: ext ≠ [dot, dot] := by
      intro hdots
      have hlast := congrArg List.getLast? hdots
      rw [List.getLast?_append_cons, List.getLast?_cons_of_ne_nil hrom.ne_nil] at hlast
      exact hdot (List.mem_of_getLast? hlast)
    exact ⟨stem, ext, ⟨⟨hbusy, hparent, hslash⟩, before, trailing, rfl, hbefore, htrailing⟩, hstem,
      hdot, hrom⟩

theorem exists_last_part (front : List UInt8) :
    ∃ before part, front = before ++ part ∧ Opens before ∧ slash ∉ part ∧
      (part = [] ↔ Opens front) := by
  have hsplit : front.rdropWhile (· ≠ slash) ++ front.rtakeWhile (· ≠ slash) = front :=
    List.rdropWhile_append_rtakeWhile
  have hpart : slash ∉ front.rtakeWhile (· ≠ slash) := by
    intro hmem
    simpa using List.mem_rtakeWhile_imp hmem
  have hbefore : Opens (front.rdropWhile (· ≠ slash)) := by
    by_cases hnil : front.rdropWhile (· ≠ slash) = []
    · exact .inl hnil
    · refine .inr ?_
      rw [List.getLast?_eq_some_getLast hnil, Option.some_inj]
      simpa using List.rdropWhile_last_not _ _ hnil
  refine ⟨_, _, hsplit.symm, hbefore, hpart, ?_⟩
  constructor
  · intro hnil
    rw [hnil, List.append_nil] at hsplit
    rwa [hsplit] at hbefore
  · rintro (rfl | hlast)
    · rfl
    · by_contra hne
      rw [← hsplit, List.getLast?_append_of_ne_nil _ hne] at hlast
      exact hpart (List.mem_of_getLast? hlast)

theorem isRom_append_dot_iff (hslash : slash ∉ ext) (hdot : dot ∉ ext) (hne : ext ≠ [])
    (htrailing : Trailing trailing) :
    isRom ⟨front ++ dot :: ext ++ trailing⟩ = true ↔ ¬Opens front ∧ IsRomExtension ext := by
  obtain ⟨before, part, rfl, hbefore, hpart, hopens⟩ := exists_last_part front
  have hslash' : slash ∉ part ++ dot :: ext := by
    rw [List.mem_append, not_or, List.mem_cons, not_or]
    exact ⟨hpart, by decide, hslash⟩
  have hbusy : isIdle (part ++ dot :: ext) = false := by
    cases part <;> simp [isIdle, hne]
  rw [← hopens, List.append_assoc before, isRom_iff_of_last_part hbefore hslash' hbusy htrailing]
  constructor
  · rintro ⟨stem, ext', heq, hstem, hdot', hrom⟩
    have hne : part ≠ [] := by
      rintro rfl
      obtain ⟨b, stem, rfl⟩ := List.exists_cons_of_ne_nil hstem
      obtain ⟨-, rfl⟩ := List.cons.inj heq
      exact hdot (List.mem_append_right _ List.mem_cons_self)
    have hext := extension?_eq_some_iff.mpr ⟨part, rfl, hne, hdot⟩
    rw [extension?_eq_some_iff.mpr ⟨stem, heq, hstem, hdot'⟩, Option.some_inj] at hext
    exact ⟨hne, hext ▸ hrom⟩
  · rintro ⟨hne, hrom⟩
    exact ⟨part, ext, rfl, hne, hdot, hrom⟩

theorem isRom_append_dot_congr (hslash : slash ∉ ext) (hdot : dot ∉ ext)
    (htrailing : Trailing trailing) (hsame : List.Forall₂ SameLetter ext ext') :
    isRom ⟨front ++ dot :: ext' ++ trailing⟩ = isRom ⟨front ++ dot :: ext ++ trailing⟩ := by
  by_cases hne : ext = []
  · subst hne
    rw [List.forall₂_nil_left_iff.mp hsame]
  · have hne' : ext' ≠ [] := by
      rintro rfl
      exact hne (List.forall₂_nil_right_iff.mp hsame)
    have hslash' := not_mem_of_sameLetter hsame (by decide) hslash
    have hdot' := not_mem_of_sameLetter hsame (by decide) hdot
    rw [Bool.eq_iff_iff, isRom_append_dot_iff hslash' hdot' hne' htrailing,
      isRom_append_dot_iff hslash hdot hne htrailing, isRomExtension_congr hsame]

theorem isRom_append_dots (front : List UInt8) (htrailing : Trailing trailing) :
    isRom ⟨front ++ [dot, dot] ++ trailing⟩ = false := by
  obtain ⟨before, part, rfl, hbefore, hpart, -⟩ := exists_last_part front
  have hslash : slash ∉ part ++ [dot, dot] := by
    rw [List.mem_append, not_or]
    exact ⟨hpart, by decide⟩
  have hbusy : isIdle (part ++ [dot, dot]) = false := by
    cases part <;> simp [isIdle]
  rw [← Bool.not_eq_true, List.append_assoc before,
    isRom_iff_of_last_part hbefore hslash hbusy htrailing]
  rintro ⟨stem, ext, heq, hstem, hdot, hrom⟩
  have hext := extension?_eq_some_iff.mpr ⟨stem, heq, hstem, hdot⟩
  have hnone : extension? (part ++ [dot, dot]) = some [] :=
    extension?_eq_some_iff.mpr ⟨part ++ [dot], by simp, by simp, by simp⟩
  rw [hnone, Option.some_inj] at hext
  exact hrom.ne_nil hext.symm

end LastPart

/-- A path is that of a ROM if and only if its last component is an ordinary name that is a stem, a
dot and an extension of ROMs in any case. So what does not count at its end, a directory in front of
a name and the case of the extension make no difference, and there is no ROM that ends in two dots,
has nothing before the only dot of its name, or has an extension that is no text. -/
theorem isRom_from_last_component (p : Path) :
    (∀ name, p.EndsIn name ↔ p.components.getLast? = some (.name name)) ∧
      (p.isRom = true ↔ ∃ stem ext, p.EndsIn (stem ++ dot :: ext) ∧ stem ≠ [] ∧ dot ∉ ext ∧
        IsRomExtension ext) ∧
      (∀ dir name, p.EndsIn name → isRom ⟨dir ++ slash :: p.bytes⟩ = p.isRom) ∧
      isRom ⟨p.bytes ++ [slash]⟩ = p.isRom ∧ isRom ⟨p.bytes ++ [slash, dot]⟩ = p.isRom ∧
      ∀ front trailing, Trailing trailing →
        isRom ⟨front ++ [dot, dot] ++ trailing⟩ = false ∧
        ∀ ext, slash ∉ ext → dot ∉ ext →
          (∀ ext', List.Forall₂ SameLetter ext ext' →
            isRom ⟨front ++ dot :: ext' ++ trailing⟩ = isRom ⟨front ++ dot :: ext ++ trailing⟩) ∧
          (ext ≠ [] → Opens front → isRom ⟨front ++ dot :: ext ++ trailing⟩ = false) ∧
          ((∀ s, (ofString s).bytes ≠ ext) → isRom ⟨front ++ dot :: ext ++ trailing⟩ = false) := by
  refine ⟨fun name ↦ endsIn_iff, isRom_iff, fun dir name h ↦ isRom_behind_dir h dir,
    isRom_append_trailing (.slash .empty), isRom_append_trailing (.current .empty), ?_⟩
  intro front trailing htrailing
  refine ⟨isRom_append_dots front htrailing, fun ext hslash hdot ↦ ⟨?_, ?_, ?_⟩⟩
  · intro ext' hsame
    exact isRom_append_dot_congr hslash hdot htrailing hsame
  · intro hne hopens
    rw [← Bool.not_eq_true, isRom_append_dot_iff hslash hdot hne htrailing]
    exact fun h ↦ h.1 hopens
  · intro htext
    have hne : ext ≠ [] := fun hnil ↦ htext "" hnil.symm
    rw [← Bool.not_eq_true, isRom_append_dot_iff hslash hdot hne htrailing]
    rintro ⟨-, hrom⟩
    obtain ⟨s, hs⟩ := hrom.exists_ofString
    exact htext s hs

end Path

end CopyJump
