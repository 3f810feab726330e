import CopyJump.Proofs.CallActs

namespace CopyJump

namespace Call

def isPlay : Call → Bool
  | .play .. => true
  | _ => false

def isFailedPlay : Call → Bool
  | .play _ (.error _) => true
  | _ => false

def isTrouble : Call → Bool
  | .play _ (.error _) | .report (.soundDisabled _) => true
  | _ => false

theorem isTrouble_of_isIdle {c : Call} (hc : c.isIdle = true) :
    c.isTrouble = false ∧ c.isPlay = false := by
  cases c with
  | report m => cases m <;> simp_all [isIdle, Message.isNews, isTrouble, isPlay]
  | _ => simp_all [isIdle, isTrouble, isPlay]

end Call

/-- The calls of a run, given whether its speaker is still in use. -/
inductive SpeakerRun : Bool → List Call → Prop
  | inUse {calls : List Call} (hcalls : ∀ c ∈ calls, c.isTrouble = false) : SpeakerRun true calls
  | broken {before after : List Call} (frame : AudioFrame) (reason : String)
      (hbefore : ∀ c ∈ before, c.isTrouble = false)
      (hafter : ∀ c ∈ after, c.isTrouble = false ∧ c.isPlay = false) :
      SpeakerRun false
        (before ++ .play frame (.error reason) :: .report (.soundDisabled reason) :: after)

namespace SpeakerRun

theorem append {ok : Bool} {calls added : List Call} (hr : SpeakerRun ok calls)
    (hadded : ∀ c ∈ added, c.isTrouble = false ∧ c.isPlay = false) :
    SpeakerRun ok (calls ++ added) := by
  cases hr with
  | inUse hcalls =>
    refine .inUse fun c hc ↦ ?_
    rcases List.mem_append.mp hc with hc | hc
    · exact hcalls c hc
    · exact (hadded c hc).1
  | broken frame reason hbefore hafter =>
    rw [List.append_assoc, List.cons_append, List.cons_append]
    refine .broken frame reason hbefore fun c hc ↦ ?_
    rcases List.mem_append.mp hc with hc | hc
    · exact hafter c hc
    · exact hadded c hc

theorem sounds {ok ok' : Bool} {calls sound : List Call} {frame : AudioFrame}
    (hr : SpeakerRun ok calls) (hs : Sounds frame ok sound ok') :
    SpeakerRun ok' (calls ++ sound) := by
  cases hs with
  | off => simpa using hr
  | played =>
    obtain ⟨hcalls⟩ := hr
    refine .inUse fun c hc ↦ ?_
    rcases List.mem_append.mp hc with hc | hc
    · exact hcalls c hc
    · rw [List.mem_singleton.mp hc]
      rfl
  | broke reason =>
    obtain ⟨hcalls⟩ := hr
    exact .broken frame reason hcalls (by simp)

theorem act {C : Type} {h h' : Host (Traced C)} {added : List Call}
    (hcalls : h'.stage.calls = h.stage.calls ++ added) (ha : Host.Act h h' added)
    (hr : SpeakerRun h.stage.soundOk h.stage.calls) :
    SpeakerRun h'.stage.soundOk h'.stage.calls := by
  rw [hcalls]
  cases ha with
  | idle hadded hsound =>
    rw [hsound]
    exact hr.append fun c hc ↦ Call.isTrouble_of_isIdle (hadded c hc)
  | frame keys frames result hsound =>
    have hpolled : SpeakerRun h.stage.soundOk (h.stage.calls ++ [.poll (.ok keys)]) :=
      hr.append (by simp [Call.isTrouble, Call.isPlay])
    have hpicture : ∀ c ∈ [Call.draw frames.2 result], c.isTrouble = false ∧ c.isPlay = false := by
      simp [Call.isTrouble, Call.isPlay]
    have hdrawn := (hpolled.sounds hsound).append hpicture
    simpa only [List.append_assoc, List.cons_append, List.nil_append] using hdrawn
  | resume hsound | pause _ hsound | redraw _ hsound | stop _ hsound =>
    rw [hsound]
    exact hr.append (by simp [Call.isTrouble, Call.isPlay])

theorem any_isFailedPlay {ok : Bool} {calls : List Call} (hr : SpeakerRun ok calls) :
    calls.any Call.isFailedPlay = !ok := by
  cases hr with
  | inUse hcalls =>
    rw [List.any_eq_false.mpr, Bool.not_true]
    intro c hc hfailed
    have htrouble := hcalls c hc
    unfold Call.isFailedPlay at hfailed
    split at hfailed
    · cases htrouble
    · cases hfailed
  | broken frame reason _ _ => simp [Call.isFailedPlay]

theorem ok_of_no_failedPlay {ok : Bool} {calls : List Call} (hr : SpeakerRun ok calls)
    (hnone : ∀ c ∈ calls, c.isFailedPlay = false) : ok = true := by
  have hany := hr.any_isFailedPlay
  rw [List.any_eq_false.mpr fun c hc ↦ Bool.eq_false_iff.mp (hnone c hc)] at hany
  simpa using hany.symm

theorem eq_of_failedPlay {ok : Bool} {before after : List Call} {frame : AudioFrame}
    {reason : String} (hr : SpeakerRun ok (before ++ .play frame (.error reason) :: after)) :
    ok = false ∧ (∀ c ∈ before, c.isTrouble = false) ∧
      ∃ rest, after = .report (.soundDisabled reason) :: rest ∧
        ∀ c ∈ rest, c.isTrouble = false ∧ c.isPlay = false := by
  generalize hcalls : before ++ .play frame (.error reason) :: after = calls at hr
  cases hr with
  | inUse hnone =>
    have htrouble := hnone (.play frame (.error reason)) (by simp [← hcalls])
    cases htrouble
  | @broken before' after' frame' reason' hbefore hafter =>
    -- The failed plays of both readings are the same, for there is only one.
    rcases List.append_eq_append_iff.mp hcalls with ⟨gap, hgap, htail⟩ | ⟨gap, hgap, htail⟩
    · cases gap with
      | nil =>
        cases htail
        rw [List.append_nil] at hgap
        exact ⟨rfl, hgap ▸ hbefore, _, rfl, hafter⟩
      | cons c gap =>
        cases htail
        cases hbefore (.play frame (.error reason)) (by simp [hgap])
    · cases gap with
      | nil =>
        cases htail
        rw [List.append_nil] at hgap
        exact ⟨rfl, hgap ▸ hbefore, _, rfl, hafter⟩
      | cons c gap =>
        cases gap with
        | nil => cases htail
        | cons d gap =>
          cases htail
          cases (hafter (.play frame (.error reason)) (by simp)).1

end SpeakerRun

namespace Host

variable {C : Type} [Console C]

theorem speakerRun {config : Config} {console : C} {m : Moment} {h : Host (Traced C)}
    (hs : start config (⟨console, #[]⟩ : Traced C) m = .ok h) (requests : List Request) :
    SpeakerRun (afterAll requests h).stage.soundOk (afterAll requests h).stage.calls :=
  holds_of_acts SpeakerRun.act (.inUse (by simp [initial, Stage.calls])) hs requests

end Host

end CopyJump
