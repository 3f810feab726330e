import CopyJump.KeyMask
import CopyJump.Proofs.NumberReading
import Mathlib.Data.List.DropRight

namespace CopyJump.Text

variable {cs left right : List Char}

def Trimmed (cs : List Char) : Prop :=
  (∀ c ∈ cs.head?, ¬isBlank c) ∧ ∀ c ∈ cs.getLast?, ¬isBlank c

theorem not_isBlank_of_head? (cs : List Char) : ∀ c ∈ (cs.dropWhile isBlank).head?, ¬isBlank c := by
  intro c hc
  have hhead := List.head?_dropWhile_not isBlank cs
  rw [Option.mem_def.mp hc] at hhead
  simpa using hhead

theorem trim_eq (cs : List Char) : trim cs = (cs.dropWhile isBlank).rdropWhile isBlank := rfl

theorem trimmed_trim (cs : List Char) : Trimmed (trim cs) := by
  constructor
  · intro c hc
    obtain ⟨after, hafter⟩ := List.rdropWhile_prefix isBlank (l := cs.dropWhile isBlank)
    apply not_isBlank_of_head? cs
    rw [← hafter, List.head?_append]
    exact Option.mem_def.mpr (by rw [← trim_eq, Option.mem_def.mp hc]; rfl)
  · intro c hc
    rw [trim, List.getLast?_reverse] at hc
    exact not_isBlank_of_head? _ c hc

theorem exists_trim (cs : List Char) : ∃ left right, cs = left ++ trim cs ++ right ∧
    (∀ c ∈ left, isBlank c) ∧ ∀ c ∈ right, isBlank c := by
  refine ⟨cs.takeWhile isBlank, (cs.dropWhile isBlank).rtakeWhile isBlank, ?_,
    fun c hc ↦ List.mem_takeWhile_imp hc, fun c hc ↦ List.mem_rtakeWhile_imp hc⟩
  rw [trim_eq, List.append_assoc, List.rdropWhile_append_rtakeWhile,
    List.takeWhile_append_dropWhile]

theorem dropWhile_isBlank_of_not (hcs : ∀ c ∈ cs, ¬isBlank c) : cs.dropWhile isBlank = cs := by
  cases cs with
  | nil => rfl
  | cons c cs => exact List.dropWhile_cons_of_neg (hcs c List.mem_cons_self)

theorem trim_of_not_blank (hleft : ∀ c ∈ left, isBlank c) (hright : ∀ c ∈ right, isBlank c)
    (hcs : ∀ c ∈ cs, ¬isBlank c) : trim (left ++ cs ++ right) = cs := by
  have hfront : (left ++ cs ++ right).dropWhile isBlank = (cs ++ right).dropWhile isBlank := by
    rw [List.append_assoc, List.dropWhile_append_of_pos hleft]
  have hback : (cs ++ right).rdropWhile isBlank = cs := by
    rw [List.rdropWhile, List.reverse_append, List.dropWhile_append_of_pos (by simpa using hright),
      dropWhile_isBlank_of_not (by simpa using hcs), List.reverse_reverse]
  rw [trim_eq, hfront]
  cases cs with
  | nil =>
    rw [List.nil_append, List.dropWhile_eq_nil_iff.mpr hright]
    rfl
  | cons c cs =>
    rw [List.cons_append, List.dropWhile_cons_of_neg (hcs c List.mem_cons_self)]
    exact hback

namespace Number

variable {base d n : Nat} {c : Char} {cs : List Char}

theorem IsDigit.not_isBlank (hbase : base ≤ 16) (h : IsDigit base c d) : ¬isBlank c := by
  obtain ⟨hd, h⟩ := h
  have hlt : d < 16 := Nat.lt_of_lt_of_le hd hbase
  interval_cases d <;> rcases h with h | h <;> cases h <;> decide

theorem Signed.not_isBlank (hbase : base ≤ 16) (h : Signed base cs n) : ∀ c ∈ cs, ¬isBlank c := by
  obtain ⟨sign, ds, rfl, hsign, -, hds⟩ := h
  intro c hc
  rcases List.mem_append.mp hc with hc | hc
  · rcases hsign with rfl | rfl
    · exact absurd hc List.not_mem_nil
    · obtain rfl := List.mem_singleton.mp hc
      decide
  · obtain ⟨d, hd⟩ := hds.exists_digit hc
    exact hd.not_isBlank hbase

theorem Signed.map_toUpper (hbase : base ≤ 16) (h : Signed base cs n) :
    Signed base (cs.map Char.toUpper) n := by
  obtain ⟨sign, ds, rfl, hsign, hnil, hds⟩ := h
  refine ⟨sign, ds.map Char.toUpper, ?_, hsign, by simpa using hnil, hds.map_toUpper hbase⟩
  rw [List.map_append]
  rcases hsign with rfl | rfl <;> rfl

theorem signed_padded (hlt : 1 < base) (hbase : base ≤ 16) (width n : Nat) :
    Signed base (padded base width n) n := by
  refine ⟨[], _, rfl, .inl rfl, ?_, spells_padded hlt hbase width n⟩
  exact List.append_ne_nil_of_right_ne_nil _ Nat.toDigits_ne_nil

end Number

end CopyJump.Text

namespace CopyJump.KeyMask

open Text Text.Number

variable {cs rest : List Char} {base n : Nat} {x : Char}

/-- The base that a text is read to, and what is behind the prefix for it. -/
inductive Prefixed : List Char → Nat → List Char → Prop
  | hexadecimal {x : Char} (hx : x = 'x' ∨ x = 'X') (rest : List Char) :
      Prefixed ('0' :: x :: rest) 16 rest
  | decimal {cs : List Char} (h : ∀ x rest, cs = '0' :: x :: rest → x ≠ 'x' ∧ x ≠ 'X') :
      Prefixed cs 10 cs

/-- The ways to write a mask, but for white space. -/
inductive Spelled : List Char → Nat → Prop
  | decimal {cs : List Char} {n : Nat} (h : Signed 10 cs n) : Spelled cs n
  | hexadecimal {x : Char} {cs : List Char} {n : Nat} (hx : x = 'x' ∨ x = 'X')
      (h : Signed 16 cs n) : Spelled ('0' :: x :: cs) n

theorem exists_prefixed (cs : List Char) :
    ∃ base rest, Prefixed cs base rest ∧ read cs = Number.read base limit rest := by
  unfold read
  split
  · next rest => exact ⟨16, rest, .hexadecimal (.inl rfl) rest, rfl⟩
  · next rest => exact ⟨16, rest, .hexadecimal (.inr rfl) rest, rfl⟩
  · next hlower hupper =>
    refine ⟨10, cs, .decimal ?_, rfl⟩
    rintro x rest rfl
    constructor
    · rintro rfl
      exact hlower rest rfl
    · rintro rfl
      exact hupper rest rfl

theorem Prefixed.base_bounds (h : Prefixed cs base rest) : 0 < base ∧ base ≤ 16 := by
  cases h <;> omega

theorem Prefixed.spelled_iff (h : Prefixed cs base rest) :
    Spelled cs n ↔ Signed base rest n := by
  constructor
  · intro hspelled
    cases h with
    | hexadecimal hx =>
      cases hspelled with
      | decimal hsigned =>
        obtain ⟨d, hd⟩ := ((signed_iff (by decide)).mp hsigned).2.exists_digit
          (List.mem_cons_of_mem _ List.mem_cons_self)
        rw [← digit?_eq_some_iff (by decide)] at hd
        rcases hx with rfl | rfl <;> simp [digit?] at hd
      | hexadecimal _ hsigned => exact hsigned
    | decimal hcs =>
      cases hspelled with
      | decimal hsigned => exact hsigned
      | hexadecimal hx _ =>
        obtain ⟨hlower, hupper⟩ := hcs _ _ rfl
        exact absurd hx (not_or.mpr ⟨hlower, hupper⟩)
  · intro hsigned
    cases h with
    | hexadecimal hx => exact .hexadecimal hx hsigned
    | decimal => exact .decimal hsigned

theorem parse_eq_error_iff {s : String} {e : Invalid} :
    parse s = .error e ↔ e.text = trim s.toList ∧ read (trim s.toList) = .error e.problem := by
  rw [parse]
  obtain ⟨text, problem⟩ := e
  dsimp only
  split
  · next heq => simp [heq]
  · next heq => simp [heq, eq_comm]

theorem parse_eq_ok_iff {s : String} {v : UInt16} :
    parse s = .ok v ↔ Spelled (trim s.toList) v.toNat := by
  obtain ⟨base, rest, hprefixed, hread⟩ := exists_prefixed (trim s.toList)
  obtain ⟨hpos, hbase⟩ := hprefixed.base_bounds
  have hspelled (n : Nat) :
      read (trim s.toList) = .ok n ↔ Spelled (trim s.toList) n ∧ n ≤ limit := by
    rw [hread, hprefixed.spelled_iff, read_eq_ok_iff hpos hbase]
  have hv : v.toNat ≤ limit := Nat.le_of_lt_succ v.toNat_lt
  rw [← and_iff_left (a := Spelled _ _) hv, ← hspelled, parse]
  split
  · next n heq =>
    have hn : n < 2 ^ 16 := Nat.lt_succ_of_le ((hspelled n).mp heq).2
    rw [heq, Except.ok.injEq, Except.ok.injEq, ← UInt16.toNat_inj, UInt16.toNat_ofNat_of_lt' hn]
  · next heq => simp [heq]

theorem Spelled.not_isBlank (h : Spelled cs n) : ∀ c ∈ cs, ¬isBlank c := by
  cases h with
  | decimal h => exact h.not_isBlank (by decide)
  | hexadecimal hx h =>
    intro c hc
    rcases List.mem_cons.mp hc with rfl | hc
    · decide
    · rcases List.mem_cons.mp hc with rfl | hc
      · rcases hx with rfl | rfl <;> decide
      · exact h.not_isBlank (by decide) c hc

theorem parse_of_spelled {left right : List Char} {v : UInt16}
    (hblank : ∀ c ∈ left ++ right, isBlank c) (h : Spelled cs v.toNat) :
    parse (String.ofList (left ++ cs ++ right)) = .ok v := by
  rw [List.forall_mem_append] at hblank
  rwa [parse_eq_ok_iff, String.toList_ofList, trim_of_not_blank hblank.1 hblank.2 h.not_isBlank]

/-- Text is read as a mask by one grammar. What is left of it without the white space around is a
number of at most 65535, written in decimal digits or behind a prefix in hexadecimal ones of either
case, with or without one plus sign; or nothing is left behind the prefix; or the first problem from
left to right is a character that is no digit, or a digit that makes the value too large. So a mask
that was written is read back, with any white space around and any number of zeros in front. -/
theorem parse_follows_grammar :
    (∀ s : String, ∃ left t right base rest, s.toList = left ++ t ++ right ∧
      (∀ c ∈ left, isBlank c) ∧ (∀ c ∈ right, isBlank c) ∧ Trimmed t ∧ Prefixed t base rest ∧
      (∀ v, parse s = .ok v ↔ Spelled t v.toNat) ∧
      (∀ e, parse s = .error e → e.text = t) ∧
      (parse s = .error ⟨t, .empty⟩ ↔ rest = []) ∧
      (parse s = .error ⟨t, .invalidDigit⟩ ↔ Offends base 65535 (unsigned rest)) ∧
      (parse s = .error ⟨t, .tooLarge⟩ ↔ Exceeds base 65535 (unsigned rest))) ∧
    ∀ (v : UInt16) (left right : List Char) (width : Nat), (∀ c ∈ left ++ right, isBlank c) →
      parse (String.ofList (left ++ padded 10 width v.toNat ++ right)) = .ok v ∧
      ∀ x, x = 'x' ∨ x = 'X' →
        parse (String.ofList (left ++ '0' :: x :: padded 16 width v.toNat ++ right)) = .ok v ∧
        parse (String.ofList
          (left ++ '0' :: x :: (padded 16 width v.toNat).map Char.toUpper ++ right)) = .ok v := by
  constructor
  · intro s
    obtain ⟨left, right, hs, hleft, hright⟩ := exists_trim s.toList
    obtain ⟨base, rest, hprefixed, hread⟩ := exists_prefixed (trim s.toList)
    obtain ⟨hpos, hbase⟩ := hprefixed.base_bounds
    refine ⟨left, trim s.toList, right, base, rest, hs, hleft, hright, trimmed_trim _, hprefixed,
      fun v ↦ parse_eq_ok_iff, fun e he ↦ (parse_eq_error_iff.mp he).1, ?_, ?_, ?_⟩
    · rw [parse_eq_error_iff, and_iff_right rfl, hread, read_eq_empty_iff hpos hbase]
    · rw [parse_eq_error_iff, and_iff_right rfl, hread, read_eq_invalidDigit_iff hpos hbase]
      rfl
    · rw [parse_eq_error_iff, and_iff_right rfl, hread, read_eq_tooLarge_iff hpos hbase]
      rfl
  · intro v left right width hblank
    have hdecimal : Signed 10 (padded 10 width v.toNat) v.toNat :=
      signed_padded (by decide) (by decide) width v.toNat
    have hhexadecimal : Signed 16 (padded 16 width v.toNat) v.toNat :=
      signed_padded (by decide) (by decide) width v.toNat
    refine ⟨parse_of_spelled hblank (.decimal hdecimal), fun x hx ↦ ⟨?_, ?_⟩⟩
    · exact parse_of_spelled hblank (.hexadecimal hx hhexadecimal)
    · exact parse_of_spelled hblank (.hexadecimal hx (hhexadecimal.map_toUpper (by decide)))

theorem parse_follows_grammar_of_padded :
    (∀ c ∈ ['\t', '\u00a0'] ++ ['\n'], isBlank c) ∧ ('X' = 'x' ∨ 'X' = 'X') ∧
      parse (String.ofList (['\t', '\u00a0'] ++
        '0' :: 'X' :: (padded 16 6 0xABCD).map Char.toUpper ++ ['\n'])) = .ok 0xABCD := by
  have hblank : ∀ c ∈ ['\t', '\u00a0'] ++ ['\n'], isBlank c := List.all_eq_true.mp (by decide)
  exact ⟨hblank, .inr rfl, ((parse_follows_grammar.2 0xABCD _ _ 6 hblank).2 'X' (.inr rfl)).2⟩

end CopyJump.KeyMask
