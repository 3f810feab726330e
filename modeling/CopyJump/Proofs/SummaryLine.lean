import CopyJump.Proofs.HeadlessAgreement
import CopyJump.Proofs.NumberReading

namespace CopyJump

namespace Text.Number

variable {base width n : Nat}

theorem toDigits_injective (hlt : 1 < base) (hbase : base ≤ 16) :
    Function.Injective (Nat.toDigits base) := by
  intro n m h
  have hspells := spells_toDigits hlt hbase n
  rw [h] at hspells
  exact hspells.unique hbase (spells_toDigits hlt hbase m)

theorem padded_injective (hlt : 1 < base) (hbase : base ≤ 16) (width : Nat) :
    Function.Injective (padded base width) := by
  intro n m h
  have hspells := spells_padded hlt hbase width n
  rw [h] at hspells
  exact hspells.unique hbase (spells_padded hlt hbase width m)

theorem digitChar_mem_lowerDigits {d : Nat} (hd : d < 16) : Nat.digitChar d ∈ lowerDigits := by
  interval_cases d <;> decide

theorem mem_lowerDigits_of_mem_toDigits (hlt : 1 < base) (hbase : base ≤ 16) {c : Char}
    (hc : c ∈ Nat.toDigits base n) : c ∈ lowerDigits := by
  induction n using Nat.strongRecOn with
  | ind n ih =>
    rcases Nat.lt_or_ge n base with hsmall | hlarge
    · rw [Nat.toDigits_of_lt_base hsmall, List.mem_singleton] at hc
      exact hc ▸ digitChar_mem_lowerDigits (Nat.lt_of_lt_of_le hsmall hbase)
    · rw [Nat.toDigits_of_base_le hlt hlarge, List.mem_append, List.mem_singleton] at hc
      rcases hc with hc | rfl
      · exact ih _ (Nat.div_lt_self (by omega) hlt) hc
      · have hlast : n % base < base := Nat.mod_lt n (Nat.zero_lt_of_lt hlt)
        exact digitChar_mem_lowerDigits (Nat.lt_of_lt_of_le hlast hbase)

theorem mem_lowerDigits_of_mem_padded (hlt : 1 < base) (hbase : base ≤ 16) {c : Char}
    (hc : c ∈ padded base width n) : c ∈ lowerDigits := by
  rw [padded, List.mem_append] at hc
  rcases hc with hc | hc
  · rw [(List.mem_replicate.mp hc).2]
    decide
  · exact mem_lowerDigits_of_mem_toDigits hlt hbase hc

theorem length_padded (hlt : 1 < base) (hwidth : 0 < width) (hn : n < base ^ width) :
    (padded base width n).length = width := by
  have hle := (Nat.length_toDigits_le_iff hlt hwidth).mpr hn
  rw [padded, List.length_append, List.length_replicate]
  omega

end Text.Number

namespace Headless

open Text.Number

theorem append_space_inj {as bs as' bs' : List Char} (hbs : ' ' ∉ bs) (hbs' : ' ' ∉ bs')
    (h : as ++ ' ' :: bs = as' ++ ' ' :: bs') : as = as' ∧ bs = bs' := by
  rcases List.append_eq_append_iff.mp h with ⟨cs, rfl, hcs⟩ | ⟨cs, rfl, hcs⟩
  · cases cs with
    | nil => simpa using hcs
    | cons c cs =>
      obtain ⟨-, rfl⟩ := List.cons.inj hcs
      exact absurd (List.mem_append_right _ List.mem_cons_self) hbs
  · cases cs with
    | nil => simpa [eq_comm] using hcs
    | cons c cs =>
      obtain ⟨-, rfl⟩ := List.cons.inj hcs
      exact absurd (List.mem_append_right _ List.mem_cons_self) hbs'

theorem append_words_inj {as as' : List Char} {words words' : List (List Char)}
    (hlength : words.length = words'.length) (hwords : ∀ word ∈ words, ' ' ∉ word)
    (hwords' : ∀ word ∈ words', ' ' ∉ word)
    (h : as ++ words.flatMap (' ' :: ·) = as' ++ words'.flatMap (' ' :: ·)) :
    as = as' ∧ words = words' := by
  induction words using List.reverseRecOn generalizing words' with
  | nil =>
    rw [List.length_nil, eq_comm, List.length_eq_zero_iff] at hlength
    subst hlength
    simpa using h
  | append_singleton words word ih =>
    rw [List.length_append, List.length_singleton] at hlength
    obtain ⟨init', word', rfl⟩ : ∃ init' word', words' = init' ++ [word'] := by
      rcases List.eq_nil_or_concat' words' with rfl | hconcat
      · cases hlength
      · exact hconcat
    rw [List.length_append, List.length_singleton, Nat.add_right_cancel_iff] at hlength
    rw [List.forall_mem_append] at hwords hwords'
    simp only [List.flatMap_append, List.flatMap_singleton, ← List.append_assoc] at h
    obtain ⟨hrest, rfl⟩ := append_space_inj (hwords.2 word (List.mem_singleton_self _))
      (hwords'.2 word' (List.mem_singleton_self _)) h
    obtain ⟨has, rfl⟩ := ih hlength hwords.1 hwords'.1 hrest
    exact ⟨has, rfl⟩

structure Fields where
  rom : List Char
  frames : List Char
  instructions : List Char
  programCounter : List Char
  video : List Char
  audio : List Char

def Fields.words (f : Fields) : List (List Char) :=
  ["frames=".toList ++ f.frames, "instructions=".toList ++ f.instructions,
    "pc=".toList ++ f.programCounter, "video=".toList ++ f.video, "audio=".toList ++ f.audio]

def Fields.line (f : Fields) : List Char :=
  "rom=".toList ++ f.rom ++ f.words.flatMap (' ' :: ·)

def Summary.fields (s : Summary) : Fields where
  rom := (s.rom.getD "(none)").toList
  frames := Nat.toDigits 10 s.frames
  instructions := Nat.toDigits 10 s.instructions
  programCounter := padded 16 6 s.programCounter.toNat
  video := padded 16 16 s.video.toNat
  audio := padded 16 16 s.audio.toNat

theorem toList_text (s : Summary) : s.text.toList = s.fields.line := by
  -- By `delta`, since the equations of `text` and `line` are slow to make.
  delta Summary.text Fields.line
  simp [Summary.fields, Fields.words, hex, toString]

theorem no_space_of_mem_words (s : Summary) : ∀ word ∈ s.fields.words, ' ' ∉ word := by
  have hdecimal (n : Nat) : ' ' ∉ Nat.toDigits 10 n := fun hmem ↦
    absurd (mem_lowerDigits_of_mem_toDigits (by decide) (by decide) hmem) (by decide)
  have hhexadecimal (width n : Nat) : ' ' ∉ padded 16 width n := fun hmem ↦
    absurd (mem_lowerDigits_of_mem_padded (by decide) (by decide) hmem) (by decide)
  simp [Fields.words, Summary.fields, hdecimal, hhexadecimal]

theorem fields_eq_of_text {s t : Summary} (h : s.text = t.text) : s.fields = t.fields := by
  have hline : s.fields.line = t.fields.line := by rw [← toList_text, ← toList_text, h]
  have hlength : s.fields.words.length = t.fields.words.length := rfl
  obtain ⟨hrom, hwords⟩ :=
    append_words_inj hlength (no_space_of_mem_words s) (no_space_of_mem_words t) hline
  simp only [Fields.words, List.cons.injEq, List.append_cancel_left_eq, and_true] at hwords
  rw [List.append_cancel_left_eq] at hrom
  rw [Fields.mk.injEq]
  exact ⟨hrom, hwords⟩

theorem text_eq_iff {s t : Summary} :
    s.text = t.text ↔ s.rom.getD "(none)" = t.rom.getD "(none)" ∧ s.frames = t.frames ∧
      s.instructions = t.instructions ∧ s.programCounter = t.programCounter ∧
      s.video = t.video ∧ s.audio = t.audio := by
  constructor
  · intro h
    have hfields := fields_eq_of_text h
    simp only [Summary.fields, Fields.mk.injEq] at hfields
    obtain ⟨hrom, hframes, hinstructions, hpc, hvideo, haudio⟩ := hfields
    have hdecimal := @toDigits_injective 10 (by decide) (by decide)
    have hhexadecimal := @padded_injective 16 (by decide) (by decide)
    refine ⟨String.toList_inj.mp hrom, hdecimal hframes, hdecimal hinstructions, ?_, ?_, ?_⟩
    · exact UInt32.toNat_inj.mp (hhexadecimal 6 hpc)
    · exact UInt64.toNat_inj.mp (hhexadecimal 16 hvideo)
    · exact UInt64.toNat_inj.mp (hhexadecimal 16 haudio)
  · rintro ⟨hrom, hframes, hinstructions, hpc, hvideo, haudio⟩
    delta Summary.text
    simp only [hrom, hframes, hinstructions, hpc, hvideo, haudio]

/-- The text of a number in hexadecimal digits, lower case and of a fixed width. -/
structure HexField (width : Nat) (cs : List Char) (n : Nat) : Prop where
  length_eq : cs.length = width
  lower : ∀ c ∈ cs, c ∈ lowerDigits
  spells : Spells 16 cs n

theorem hexField_padded {width n : Nat} (hwidth : 0 < width) (hn : n < 16 ^ width) :
    HexField width (padded 16 width n) n where
  length_eq := length_padded (by decide) hwidth hn
  lower _ := mem_lowerDigits_of_mem_padded (by decide) (by decide)
  spells := spells_padded (by decide) (by decide) width n

/-- The line of a summary says all there is in it, whatever its ROM is called. In the summary of a
session that was run the program counter takes six digits and each digest sixteen, the frames are
those asked for, and the instructions are theirs, which a word of 64 bits has room for. -/
theorem text_determines_summary :
    (∀ s t : Summary, s.rom ≠ none → t.rom ≠ none → s.text = t.text → s = t) ∧
      ∀ (config : Config) (files : FileTree) (log log' : Log) (summary : Summary),
        run config files log = (.ok summary, log') →
        summary.rom ≠ none ∧ summary.text.toList = summary.fields.line ∧
        HexField 6 summary.fields.programCounter summary.programCounter.toNat ∧
        HexField 16 summary.fields.video summary.video.toNat ∧
        HexField 16 summary.fields.audio summary.audio.toNat ∧
        summary.frames = config.frames ∧ summary.instructions = 65536 * summary.frames ∧
        ∀ count : UInt32, config.frames = count.toNat →
          (count.toUInt64 * 65536).toNat = summary.instructions := by
  constructor
  · intro s t hs ht h
    obtain ⟨hrom, hrest⟩ := text_eq_iff.mp h
    obtain ⟨name, hs⟩ := Option.ne_none_iff_exists'.mp hs
    obtain ⟨name', ht⟩ := Option.ne_none_iff_exists'.mp ht
    rw [hs, ht, Option.getD_some, Option.getD_some] at hrom
    rw [Summary.mk.injEq, hs, ht, hrom]
    exact ⟨rfl, hrest⟩
  · intro config files log log' summary hrun
    obtain ⟨path, data, memory, -, -, -, hperform⟩ := run_eq_ok hrun
    obtain ⟨hrom, hframes, hinstructions, hpc, -⟩ := perform_eq_ok hperform
    have hlt : summary.programCounter.toNat < 16 ^ 6 := by
      rw [hpc]
      exact Memory.numbersFit _ _
    refine ⟨by simp [hrom], toList_text summary, hexField_padded (by decide) hlt,
      hexField_padded (by decide) summary.video.toNat_lt,
      hexField_padded (by decide) summary.audio.toNat_lt, hframes, hframes ▸ hinstructions, ?_⟩
    intro count hcount
    have hcount' := count.toNat_lt
    rw [hinstructions, hcount, UInt64.toNat_mul, UInt32.toNat_toUInt64, Nat.mul_comm]
    exact Nat.mod_eq_of_lt (by show 65536 * count.toNat < 2 ^ 64; omega)

theorem text_determines_summary_of_fields_in_name :
    let files : FileTree := ⟨[], [([(Path.ofString "a frames=1").bytes], .file ⟨#[1, 2, 3]⟩)]⟩
    let config : Config := { rom := some (.ofString "a frames=1"), frames := 2 }
    (⟨some "a frames=1", 2, 3, 4, 5, 6⟩ : Summary).text ≠
        (⟨some "a", 1, 3, 4, 5, 6⟩ : Summary).text ∧
      ∃ summary log', run config files {} = (.ok summary, log') ∧ summary.rom ≠ none ∧
        HexField 6 summary.fields.programCounter summary.programCounter.toNat := by
  intro files config
  obtain ⟨hdetermines, hrun⟩ := text_determines_summary
  constructor
  · intro h
    exact absurd (hdetermines _ _ (by simp) (by simp) h) (by decide)
  · have hcurrent : (library config files).current? = some (.ofString "a frames=1") := by
      decide +kernel
    have hread : files.read (.ofString "a frames=1") = .ok ⟨#[1, 2, 3]⟩ := rfl
    obtain ⟨summary, log', hok⟩ := run_succeeds hcurrent hread (dif_pos (by decide)) {}
    obtain ⟨hrom, -, hpc, -⟩ := hrun config files {} log' summary hok
    exact ⟨summary, log', hok, hrom, hpc⟩

end Headless

end CopyJump
