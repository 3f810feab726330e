import Mathlib.Data.List.Lex
import CopyJump.Path

namespace CopyJump.Path

def Component.kind : Component → Nat
  | .root => 0
  | .current => 1
  | .parent => 2
  | .name _ => 3

/-- Names come after the other components, and a name before those that extend it. -/
inductive Component.Before : Component → Component → Prop
  | kind {c d : Component} (h : c.kind < d.kind) : Before c d
  | name {bs cs : List UInt8} (h : List.Lex (· < ·) bs cs) : Before (.name bs) (.name cs)

/-- Where two paths first differ, one has the component that is before the other's, or none. -/
def Precedes (p q : Path) : Prop := List.Lex Component.Before p.components q.components

instance : Std.Trichotomous ((· < ·) : UInt8 → UInt8 → Prop) where
  trichotomous _ _ hab hba := UInt8.le_antisymm (UInt8.not_lt.mp hba) (UInt8.not_lt.mp hab)

instance : Std.Trichotomous Component.Before where
  trichotomous c d hcd hdc := by
    have hkind : c.kind = d.kind := by
      have hlt : ¬c.kind < d.kind := fun h ↦ hcd (.kind h)
      have hgt : ¬d.kind < c.kind := fun h ↦ hdc (.kind h)
      omega
    cases c with
    | name bs =>
      cases d with
      | name cs =>
        have hbs : ¬List.Lex (· < ·) bs cs := fun h ↦ hcd (.name h)
        have hcs : ¬List.Lex (· < ·) cs bs := fun h ↦ hdc (.name h)
        exact congrArg Component.name (Std.Trichotomous.trichotomous bs cs hbs hcs)
      | root | current | parent => simp [Component.kind] at hkind
    | root | current | parent => cases d <;> simp [Component.kind] at hkind ⊢

theorem wordLe_iff {as bs : List Nat} :
    wordLe as bs = true ↔ as = bs ∨ List.Lex (· < ·) as bs := by
  induction as generalizing bs with
  | nil =>
    cases bs with
    | nil => simp [wordLe]
    | cons b bs => simp [wordLe]
  | cons a as ih =>
    cases bs with
    | nil => simp [wordLe]
    | cons b bs =>
      simp only [wordLe, Bool.or_eq_true, decide_eq_true_iff, Bool.and_eq_true, beq_iff_eq, ih,
        List.cons.injEq]
      constructor
      · rintro (hlt | ⟨rfl, rfl | hlt⟩)
        · exact .inr (.rel hlt)
        · exact .inl ⟨rfl, rfl⟩
        · exact .inr (.cons hlt)
      · rintro (⟨rfl, rfl⟩ | hlt)
        · exact .inr ⟨rfl, .inl rfl⟩
        · cases hlt with
          | rel hlt => exact .inl hlt
          | cons hlt => exact .inr ⟨rfl, .inr hlt⟩

theorem lex_nameRank {bs cs : List UInt8} (h : List.Lex (· < ·) bs cs) (u v : List Nat) :
    List.Lex (· < ·) (bs.map (·.toNat + 1) ++ 0 :: u) (cs.map (·.toNat + 1) ++ 0 :: v) := by
  induction h with
  | nil => exact .rel (Nat.succ_pos _)
  | rel h => exact .rel (Nat.succ_lt_succ (UInt8.lt_iff_toNat_lt.mp h))
  | cons _ ih => exact .cons ih

theorem Component.Before.lex_rank {c d : Component} (h : c.Before d) (u v : List Nat) :
    List.Lex (· < ·) (c.rank ++ u) (d.rank ++ v) := by
  cases h with
  | kind h => cases c <;> cases d <;> exact .rel h
  | name h =>
    simp only [Component.rank, List.cons_append, List.append_assoc]
    exact .cons (lex_nameRank h u v)

theorem lex_flatMap_rank {cs ds : List Component} (h : List.Lex Component.Before cs ds) :
    List.Lex (· < ·) (cs.flatMap Component.rank) (ds.flatMap Component.rank) := by
  induction h with
  | @nil d ds => cases d <;> exact .nil
  | rel h => exact h.lex_rank _ _
  | cons _ ih => exact List.Lex.append_left _ ih _

variable {p q : Path}

theorem same_iff : p.same q = true ↔ p.components = q.components := by
  rw [same, beq_iff_eq]

theorem Precedes.lex_rank (h : p.Precedes q) : List.Lex (· < ·) p.rank q.rank := lex_flatMap_rank h

theorem Precedes.asymm (h : p.Precedes q) : ¬q.Precedes p :=
  fun h' ↦ List.lt_asymm h.lex_rank h'.lex_rank

theorem Precedes.not_same (h : p.Precedes q) : p.same q = false := by
  rw [Bool.eq_false_iff]
  intro hsame
  have hrank := h.lex_rank
  rw [rank, rank, same_iff.mp hsame] at hrank
  exact List.lt_irrefl _ hrank

theorem precedes_trichotomy (p q : Path) : p.Precedes q ∨ p.same q = true ∨ q.Precedes p := by
  by_contra hnone
  simp only [not_or, same_iff] at hnone
  exact hnone.2.1 (Std.Trichotomous.trichotomous _ _ hnone.1 hnone.2.2)

theorem le_iff : p.le q = true ↔ p.Precedes q ∨ p.same q = true := by
  rw [le, wordLe_iff]
  constructor
  · intro hle
    rcases precedes_trichotomy p q with hpq | hsame | hqp
    · exact .inl hpq
    · exact .inr hsame
    · rcases hle with heq | hlt
      · exact absurd (heq ▸ hqp.lex_rank) (List.lt_irrefl _)
      · exact absurd hlt (List.lt_asymm hqp.lex_rank)
  · rintro (hpq | hsame)
    · exact .inr hpq.lex_rank
    · exact .inl (by rw [rank, rank, same_iff.mp hsame])

protected theorem le_trans (p q r : Path) (hpq : p.le q = true) (hqr : q.le r = true) :
    p.le r = true := by
  rw [le, wordLe_iff] at *
  rcases hpq with hpq | hpq
  · rwa [hpq]
  · rcases hqr with hqr | hqr
    · exact .inr (hqr ▸ hpq)
    · exact .inr (List.lt_trans hpq hqr)

protected theorem le_total (p q : Path) : (p.le q || q.le p) = true := by
  rw [Bool.or_eq_true, le_iff, le_iff]
  rcases precedes_trichotomy p q with hpq | hsame | hqp
  · exact .inl (.inl hpq)
  · exact .inl (.inr hsame)
  · exact .inr (.inl hqp)

theorem pairwise_precedes_mergeSort {paths : List Path}
    (h : paths.Pairwise fun p q ↦ p.same q = false) :
    (paths.mergeSort le).Pairwise Precedes := by
  have hsorted : (paths.mergeSort le).Pairwise fun p q ↦ p.le q = true :=
    List.pairwise_mergeSort Path.le_trans Path.le_total paths
  have hdistinct : (paths.mergeSort le).Pairwise fun p q ↦ p.same q = false := by
    refine (List.mergeSort_perm paths le).symm.pairwise h ?_
    intro p q hpq
    rwa [same, Bool.beq_comm]
  refine (hsorted.and hdistinct).imp ?_
  rintro p q ⟨hle, hne⟩
  exact (le_iff.mp hle).resolve_right (by simp [hne])

end CopyJump.Path
