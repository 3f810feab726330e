import CopyJump.Text.Number
import Mathlib.Data.List.Forall2
import Mathlib.Data.Nat.Digits.Lemmas
import Mathlib.Tactic.IntervalCases

namespace CopyJump.Text.Number

def lowerDigits : List Char :=
  ['0', '1', '2', '3', '4', '5', '6', '7', '8', '9', 'a', 'b', 'c', 'd', 'e', 'f']

def upperDigits : List Char :=
  ['0', '1', '2', '3', '4', '5', '6', '7', '8', '9', 'A', 'B', 'C', 'D', 'E', 'F']

def IsDigit (base : Nat) (c : Char) (d : Nat) : Prop :=
  d < base ∧ (lowerDigits[d]? = some c ∨ upperDigits[d]? = some c)

/-- Characters are the digits of a number, the last one of the lowest place. -/
def Spells (base : Nat) (cs : List Char) (n : Nat) : Prop :=
  ∃ ds, List.Forall₂ (IsDigit base) cs.reverse ds ∧ Nat.ofDigits base ds = n

variable {base limit n m d : Nat} {c : Char} {cs : List Char}

theorem digit?_eq_some_iff (hbase : base ≤ 16) : digit? base c = some d ↔ IsDigit base c d := by
  have hc := Char.ofNat_toNat c
  constructor
  · intro h
    simp only [digit?, Option.filter_eq_some_iff, decide_eq_true_iff] at h
    obtain ⟨h, hd⟩ := h
    refine ⟨hd, ?_⟩
    rw [← hc]
    generalize c.toNat = k at h
    simp only [Bool.and_eq_true, decide_eq_true_iff] at h
    split_ifs at h with hrange hrange hrange
    all_goals
      obtain ⟨hlo, hhi⟩ := hrange
      obtain rfl := Option.some.inj h
      interval_cases k <;> decide
  · rintro ⟨hd, h⟩
    have hlt : d < 16 := Nat.lt_of_lt_of_le hd hbase
    interval_cases d <;> rcases h with h | h <;> cases h <;> simp [digit?, hd]

theorem digit?_eq_none_iff (hbase : base ≤ 16) : digit? base c = none ↔ ∀ d, ¬IsDigit base c d := by
  simp only [Option.eq_none_iff_forall_ne_some, ne_eq, digit?_eq_some_iff hbase]

theorem IsDigit.unique (hbase : base ≤ 16) {d' : Nat} (h : IsDigit base c d)
    (h' : IsDigit base c d') : d = d' := by
  rw [← digit?_eq_some_iff hbase] at h h'
  exact Option.some.inj (h.symm.trans h')

theorem isDigit_toUpper (h : IsDigit base c d) (hbase : base ≤ 16) : IsDigit base c.toUpper d := by
  obtain ⟨hd, h⟩ := h
  have hlt : d < 16 := Nat.lt_of_lt_of_le hd hbase
  refine ⟨hd, .inr ?_⟩
  interval_cases d <;> rcases h with h | h <;> cases h <;> decide

theorem isDigit_digitChar (hd : d < base) (hbase : base ≤ 16) :
    IsDigit base (Nat.digitChar d) d := by
  have hlt : d < 16 := Nat.lt_of_lt_of_le hd hbase
  refine ⟨hd, .inl ?_⟩
  interval_cases d <;> decide

theorem spells_nil : Spells base [] n ↔ n = 0 := by
  constructor
  · rintro ⟨ds, hds, rfl⟩
    cases hds
    rfl
  · rintro rfl
    exact ⟨[], .nil, rfl⟩

theorem spells_concat :
    Spells base (cs ++ [c]) n ↔ ∃ m d, Spells base cs m ∧ IsDigit base c d ∧ m * base + d = n := by
  simp only [Spells, List.reverse_append, List.reverse_singleton, List.singleton_append,
    List.forall₂_cons_left_iff]
  constructor
  · rintro ⟨_, ⟨d, ds, hd, hds, rfl⟩, rfl⟩
    refine ⟨_, d, ⟨ds, hds, rfl⟩, hd, ?_⟩
    rw [Nat.ofDigits_cons, Nat.mul_comm, Nat.add_comm]
  · rintro ⟨_, d, ⟨ds, hds, rfl⟩, hd, rfl⟩
    refine ⟨d :: ds, ⟨d, ds, hd, hds, rfl⟩, ?_⟩
    rw [Nat.ofDigits_cons, Nat.mul_comm, Nat.add_comm]

theorem Spells.unique (hbase : base ≤ 16) (h : Spells base cs n) (h' : Spells base cs m) :
    n = m := by
  obtain ⟨ds, hds, rfl⟩ := h
  obtain ⟨ds', hds', rfl⟩ := h'
  have hunique : Relator.RightUnique (IsDigit base) := fun _ _ _ h h' ↦ h.unique hbase h'
  rw [List.right_unique_forall₂' hunique hds hds']

theorem Spells.exists_digit (h : Spells base cs n) (hc : c ∈ cs) : ∃ d, IsDigit base c d := by
  induction cs using List.reverseRecOn generalizing n with
  | nil => exact absurd hc List.not_mem_nil
  | append_singleton cs c' ih =>
    obtain ⟨m, d, hm, hd, -⟩ := spells_concat.mp h
    rcases List.mem_append.mp hc with hc | hc
    · exact ih hm hc
    · rw [List.mem_singleton] at hc
      exact ⟨d, hc ▸ hd⟩

theorem Spells.exists_of_isPrefix (hpos : 0 < base) {before : List Char} (hbefore : before <+: cs)
    (h : Spells base cs n) : ∃ m ≤ n, Spells base before m := by
  obtain ⟨after, rfl⟩ := hbefore
  induction after using List.reverseRecOn generalizing n with
  | nil =>
    rw [List.append_nil] at h
    exact ⟨n, Nat.le_refl n, h⟩
  | append_singleton after c ih =>
    rw [← List.append_assoc, spells_concat] at h
    obtain ⟨k, d, hk, -, rfl⟩ := h
    obtain ⟨m, hm, hbefore⟩ := ih hk
    refine ⟨m, ?_, hbefore⟩
    calc m ≤ k := hm
      _ ≤ k * base := Nat.le_mul_of_pos_right k hpos
      _ ≤ k * base + d := Nat.le_add_right _ _

/-- The first character that is no digit comes before any digit at which the value of a text goes
past a limit. -/
def Offends (base limit : Nat) (cs : List Char) : Prop :=
  ∃ before c n, before ++ [c] <+: cs ∧ Spells base before n ∧ n ≤ limit ∧ ∀ d, ¬IsDigit base c d

/-- The value of a text goes past a limit at a digit before any character that is none. -/
def Exceeds (base limit : Nat) (cs : List Char) : Prop :=
  ∃ before c m n, before ++ [c] <+: cs ∧ Spells base before m ∧ m ≤ limit ∧
    Spells base (before ++ [c]) n ∧ limit < n

inductive Verdict (base limit : Nat) (cs : List Char) : Except Problem Nat → Prop
  | number {n : Nat} (h : Spells base cs n) (hle : n ≤ limit) : Verdict base limit cs (.ok n)
  | invalidDigit (h : Offends base limit cs) : Verdict base limit cs (.error .invalidDigit)
  | tooLarge (h : Exceeds base limit cs) : Verdict base limit cs (.error .tooLarge)

theorem Offends.not_spells (h : Offends base limit cs) : ¬Spells base cs n := by
  intro hcs
  obtain ⟨before, c, -, hbefore, -, -, hc⟩ := h
  obtain ⟨d, hd⟩ := hcs.exists_digit (hbefore.subset List.mem_concat_self)
  exact hc d hd

section Reading

variable (hpos : 0 < base) (hbase : base ≤ 16)
include hpos hbase

theorem Exceeds.lt_of_spells (h : Exceeds base limit cs) (hcs : Spells base cs n) : limit < n := by
  obtain ⟨before, c, -, k, hbefore, -, -, hk, hlt⟩ := h
  obtain ⟨m, hm, hspells⟩ := hcs.exists_of_isPrefix hpos hbefore
  rw [← hk.unique hbase hspells] at hm
  exact Nat.lt_of_lt_of_le hlt hm

theorem Exceeds.not_offends (h : Exceeds base limit cs) : ¬Offends base limit cs := by
  intro hoffends
  obtain ⟨before, c, -, n, hbefore, -, -, hn, hlt⟩ := h
  obtain ⟨before', c', m, hbefore', hm, hle, hc'⟩ := hoffends
  have hnot (hinitial : before' ++ [c'] <+: before ++ [c]) : False := by
    obtain ⟨d, hd⟩ := hn.exists_digit (hinitial.subset List.mem_concat_self)
    exact hc' d hd
  rcases List.prefix_or_prefix_of_prefix hbefore' hbefore with hinitial | hinitial
  · exact hnot hinitial
  · rcases List.prefix_concat_iff.mp hinitial with heq | hinitial
    · exact hnot (heq ▸ List.prefix_refl _)
    · obtain ⟨k, hk, hspells⟩ := hm.exists_of_isPrefix hpos hinitial
      rw [← hn.unique hbase hspells] at hk
      omega

theorem Verdict.unique {r r' : Except Problem Nat} (h : Verdict base limit cs r)
    (h' : Verdict base limit cs r') : r = r' := by
  cases h with
  | number h hle =>
    cases h' with
    | number h' _ => rw [h.unique hbase h']
    | invalidDigit h' => exact absurd h (h'.not_spells)
    | tooLarge h' => exact absurd (h'.lt_of_spells hpos hbase h) (Nat.not_lt_of_le hle)
  | invalidDigit h =>
    cases h' with
    | number h' _ => exact absurd h' (h.not_spells)
    | invalidDigit _ => rfl
    | tooLarge h' => exact absurd h (h'.not_offends hpos hbase)
  | tooLarge h =>
    cases h' with
    | number h' hle => exact absurd (h.lt_of_spells hpos hbase h') (Nat.not_lt_of_le hle)
    | invalidDigit h' => exact absurd h' (h.not_offends hpos hbase)
    | tooLarge _ => rfl

omit hpos in
theorem verdict_digits {seen : List Char} {value : Nat} (hseen : Spells base seen value)
    (hle : value ≤ limit) : Verdict base limit (seen ++ cs) (digits base limit value cs) := by
  induction cs generalizing seen value with
  | nil =>
    rw [List.append_nil]
    exact .number hseen hle
  | cons c cs ih =>
    have hsplit : seen ++ c :: cs = seen ++ [c] ++ cs := by simp
    have hbefore : seen ++ [c] <+: seen ++ c :: cs := ⟨cs, hsplit.symm⟩
    rw [digits]
    cases hdigit : digit? base c with
    | none =>
      exact .invalidDigit
        ⟨seen, c, value, hbefore, hseen, hle, (digit?_eq_none_iff hbase).mp hdigit⟩
    | some d =>
      have hconcat : Spells base (seen ++ [c]) (value * base + d) :=
        spells_concat.mpr ⟨value, d, hseen, (digit?_eq_some_iff hbase).mp hdigit, rfl⟩
      dsimp only
      split
      · next hlarge =>
        exact .tooLarge ⟨seen, c, value, _, hbefore, hseen, hle, hconcat, hlarge⟩
      · next hsmall =>
        rw [hsplit]
        exact ih hconcat (Nat.le_of_not_lt hsmall)

theorem digits_eq_iff {r : Except Problem Nat} :
    digits base limit 0 cs = r ↔ Verdict base limit cs r := by
  have hdigits : Verdict base limit cs (digits base limit 0 cs) :=
    verdict_digits hbase (spells_nil.mpr rfl) (Nat.zero_le limit)
  constructor
  · rintro rfl
    exact hdigits
  · exact hdigits.unique hpos hbase

end Reading

def unsigned : List Char → List Char
  | '+' :: c :: cs => c :: cs
  | cs => cs

theorem digit?_plus (base : Nat) : digit? base '+' = none := by simp [digit?]

theorem read_eq (base limit : Nat) (cs : List Char) :
    read base limit cs = if cs = [] then .error .empty else digits base limit 0 (unsigned cs) := by
  unfold read
  split
  · rfl
  · simp [unsigned, digits, digit?_plus]
  · next rest hrest =>
    cases rest with
    | nil => exact absurd rfl hrest
    | cons c cs => rfl
  · next hnil _ hplus =>
    rw [if_neg hnil, unsigned]
    rintro c cs rfl
    exact hplus _ rfl

def Signed (base : Nat) (cs : List Char) (n : Nat) : Prop :=
  ∃ sign ds, cs = sign ++ ds ∧ (sign = [] ∨ sign = ['+']) ∧ ds ≠ [] ∧ Spells base ds n

theorem unsigned_of_spells (hbase : base ≤ 16) (h : Spells base cs n) : unsigned cs = cs := by
  unfold unsigned
  split
  · next c cs =>
    obtain ⟨d, hd⟩ := h.exists_digit List.mem_cons_self
    exact absurd hd ((digit?_eq_none_iff hbase).mp (digit?_plus base) d)
  · rfl

theorem signed_iff (hbase : base ≤ 16) :
    Signed base cs n ↔ cs ≠ [] ∧ Spells base (unsigned cs) n := by
  constructor
  · rintro ⟨_, ds, rfl, rfl | rfl, hnil, hds⟩
    · rw [List.nil_append, unsigned_of_spells hbase hds]
      exact ⟨hnil, hds⟩
    · obtain ⟨c, cs, rfl⟩ := List.exists_cons_of_ne_nil hnil
      exact ⟨List.cons_ne_nil _ _, hds⟩
  · rintro ⟨hnil, h⟩
    unfold unsigned at h
    split at h
    · next c cs => exact ⟨['+'], c :: cs, rfl, .inr rfl, List.cons_ne_nil _ _, h⟩
    · exact ⟨[], _, rfl, .inl rfl, hnil, h⟩

section Reading

variable (hpos : 0 < base) (hbase : base ≤ 16)
include hpos hbase

theorem read_eq_ok_iff : read base limit cs = .ok n ↔ Signed base cs n ∧ n ≤ limit := by
  rw [read_eq, signed_iff hbase]
  split
  · next hnil => simp [hnil]
  · next hnil =>
    rw [digits_eq_iff hpos hbase]
    constructor
    · rintro ⟨h, hle⟩
      exact ⟨⟨hnil, h⟩, hle⟩
    · rintro ⟨⟨-, h⟩, hle⟩
      exact .number h hle

theorem read_eq_empty_iff : read base limit cs = .error .empty ↔ cs = [] := by
  rw [read_eq]
  split
  · next hnil => exact iff_of_true rfl hnil
  · next hnil =>
    rw [digits_eq_iff hpos hbase, iff_false_right hnil]
    nofun

theorem read_eq_invalidDigit_iff :
    read base limit cs = .error .invalidDigit ↔ Offends base limit (unsigned cs) := by
  rw [read_eq]
  split
  · next hnil =>
    subst hnil
    refine iff_of_false (by simp) ?_
    rintro ⟨before, c, -, hbefore, -⟩
    simp [unsigned] at hbefore
  · rw [digits_eq_iff hpos hbase]
    exact ⟨fun | .invalidDigit h => h, .invalidDigit⟩

theorem read_eq_tooLarge_iff :
    read base limit cs = .error .tooLarge ↔ Exceeds base limit (unsigned cs) := by
  rw [read_eq]
  split
  · next hnil =>
    subst hnil
    refine iff_of_false (by simp) ?_
    rintro ⟨before, c, -, -, hbefore, -⟩
    simp [unsigned] at hbefore
  · rw [digits_eq_iff hpos hbase]
    exact ⟨fun | .tooLarge h => h, .tooLarge⟩

end Reading

theorem Spells.zero_cons (hpos : 0 < base) (h : Spells base cs n) : Spells base ('0' :: cs) n := by
  obtain ⟨ds, hds, rfl⟩ := h
  refine ⟨ds ++ [0], ?_, by simp [Nat.ofDigits_append]⟩
  rw [List.reverse_cons]
  exact List.rel_append hds (.cons ⟨hpos, .inl rfl⟩ .nil)

theorem Spells.map_toUpper (hbase : base ≤ 16) (h : Spells base cs n) :
    Spells base (cs.map Char.toUpper) n := by
  obtain ⟨ds, hds, rfl⟩ := h
  refine ⟨ds, ?_, rfl⟩
  rw [← List.map_reverse, List.forall₂_map_left_iff]
  exact hds.imp fun c d hd ↦ isDigit_toUpper hd hbase

theorem spells_toDigits (hlt : 1 < base) (hbase : base ≤ 16) (n : Nat) :
    Spells base (Nat.toDigits base n) n := by
  induction n using Nat.strongRecOn with
  | ind n ih =>
    have hlast : n % base < base := Nat.mod_lt n (Nat.zero_lt_of_lt hlt)
    have hdigit := isDigit_digitChar hlast hbase
    rcases Nat.lt_or_ge n base with hsmall | hlarge
    · rw [Nat.mod_eq_of_lt hsmall] at hdigit
      rw [Nat.toDigits_of_lt_base hsmall]
      exact spells_concat.mpr ⟨0, n, spells_nil.mpr rfl, hdigit, by simp⟩
    · have hpos : 0 < n / base := Nat.div_pos hlarge (Nat.zero_lt_of_lt hlt)
      have hsplit : base * (n / base) + n % base = n := Nat.div_add_mod n base
      rw [← hsplit, ← Nat.toDigits_append_toDigits hlt hpos hlast, Nat.toDigits_of_lt_base hlast,
        spells_concat]
      refine ⟨n / base, n % base, ih _ (Nat.div_lt_self (by omega) hlt), hdigit, ?_⟩
      rw [Nat.mul_comm]

theorem spells_padded (hlt : 1 < base) (hbase : base ≤ 16) (width n : Nat) :
    Spells base (padded base width n) n := by
  rw [padded]
  generalize width - _ = zeros
  induction zeros with
  | zero => exact spells_toDigits hlt hbase n
  | succ zeros ih =>
    rw [List.replicate_succ]
    exact ih.zero_cons (Nat.zero_lt_of_lt hlt)

end CopyJump.Text.Number
