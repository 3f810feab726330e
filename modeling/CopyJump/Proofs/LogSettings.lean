import CopyJump.Proofs.StageCalls
import CopyJump.Proofs.TwinHosts

namespace CopyJump

/-- The line that a call adds to a log that drops nothing. -/
def Call.line? : Call → Option Line
  | .report m => some ⟨m.level, m.text⟩
  | _ => none

namespace Log

def hushed (least : Level) (muted : Bool) (log : Log) : Log where
  least := least
  muted := muted
  lines := if muted then #[] else log.lines.filter fun line ↦ least.rank ≤ line.level.rank

def dropsNothing (log : Log) : Prop := log.least = .info ∧ log.muted = false

variable {log : Log}

theorem report_of_dropsNothing (h : log.dropsNothing) (m : Message) :
    log.report m = { log with lines := log.lines.push ⟨m.level, m.text⟩ } := by
  have hallows : log.allows m.level = true := by
    unfold allows
    rw [h.1, h.2]
    cases m.level <;> rfl
  rw [report, write, if_pos hallows]

theorem hushed_report (h : log.dropsNothing) (least : Level) (muted : Bool) (m : Message) :
    (log.hushed least muted).report m = (log.report m).hushed least muted := by
  rw [report_of_dropsNothing h, report, write]
  cases muted with
  | true => rfl
  | false =>
    have hallows : (log.hushed least false).allows m.level = decide (least.rank ≤ m.level.rank) :=
      rfl
    rw [hallows]
    by_cases hl : least.rank ≤ m.level.rank
    · simp [hushed, hl]
    · simp [hushed, hl]

end Log

namespace Stage

variable {K S D : Type}

def log (s : Stage (Traced (Devices K S D))) : Log := s.console.inner.log

def hushed (least : Level) (muted : Bool) (s : Stage (Traced (Devices K S D))) :
    Stage (Traced (Devices K S D)) :=
  { s with console.inner.log := s.log.hushed least muted }

structure LogsAll (s : Stage (Traced (Devices K S D))) : Prop where
  dropsNothing : s.log.dropsNothing
  lines : s.log.lines.toList = s.calls.filterMap Call.line?

/-- The one stage is the other under a log with other settings. -/
structure Hushes (least : Level) (muted : Bool) (s t : Stage (Traced (Devices K S D))) : Prop where
  eq : s = t.hushed least muted
  all : t.LogsAll

variable {least : Level} {muted : Bool} {s t : Stage (Traced (Devices K S D))}

theorem LogsAll.silent (h : t.LogsAll) {added : List Call} (hlog : s.log = t.log)
    (hcalls : s.calls = t.calls ++ added) (hadded : added.filterMap Call.line? = []) :
    s.LogsAll := by
  refine ⟨?_, ?_⟩
  · rw [hlog]
    exact h.dropsNothing
  · rw [hlog, h.lines, hcalls, List.filterMap_append, hadded, List.append_nil]

variable [Keypad K] [Speaker S] [Screen D]

theorem LogsAll.report (h : t.LogsAll) (m : Message) : (t.report m).LogsAll := by
  have hlog : (t.report m).log = t.log.report m := rfl
  have hpush := Log.report_of_dropsNothing h.dropsNothing m
  refine ⟨?_, ?_⟩
  · rw [hlog, hpush]
    exact h.dropsNothing
  · rw [hlog, hpush, calls_report, List.filterMap_append, ← h.lines]
    exact Array.toList_push

theorem hushed_report (h : t.LogsAll) (m : Message) :
    (t.hushed least muted).report m = (t.report m).hushed least muted := by
  have hlog := Log.hushed_report h.dropsNothing least muted m
  have hleft : (t.hushed least muted).report m =
      { t.report m with console.inner.log := (t.log.hushed least muted).report m } := rfl
  rw [hleft, hlog]
  rfl

theorem Hushes.report (h : Hushes least muted s t) (m : Message) :
    Hushes least muted (s.report m) (t.report m) := by
  refine ⟨?_, h.all.report m⟩
  rw [h.eq]
  exact hushed_report h.all m

def played (s : Stage (Traced (Devices K S D))) (frame : AudioFrame) :
    Stage (Traced (Devices K S D)) :=
  { s with console := (Console.play s.console frame).2 }

theorem takeAudio_cases (s : Stage (Traced (Devices K S D))) (frame : AudioFrame) :
    (s.takeAudio frame).2 =
      if s.soundOk then
        match (Speaker.play s.console.inner.speaker frame).1 with
        | .ok () => s.played frame
        | .error reason => { (s.played frame).report (.soundDisabled reason) with soundOk := false }
      else s := by
  have hplay : Console.play s.console frame =
      ((Speaker.play s.console.inner.speaker frame).1, (s.played frame).console) := rfl
  unfold takeAudio
  rw [hplay]
  split
  · cases (Speaker.play s.console.inner.speaker frame).1 <;> rfl
  · rfl

theorem Hushes.takeAudio (h : Hushes least muted s t) (frame : AudioFrame) :
    Hushes least muted (s.takeAudio frame).2 (t.takeAudio frame).2 := by
  have hok : s.soundOk = t.soundOk := by rw [h.eq, Stage.hushed]
  have hspeaker : s.console.inner.speaker = t.console.inner.speaker := by rw [h.eq, Stage.hushed]
  have hplayed : Hushes least muted (s.played frame) (t.played frame) := by
    refine ⟨?_, h.all.silent rfl Array.toList_push rfl⟩
    rw [h.eq]
    rfl
  rw [takeAudio_cases, takeAudio_cases, hok, hspeaker]
  split
  case isFalse => exact h
  case isTrue =>
    split
    case h_1 => exact hplayed
    case h_2 reason _ =>
      obtain ⟨heq, hall⟩ := hplayed.report (.soundDisabled reason)
      refine ⟨?_, hall.dropsNothing, hall.lines⟩
      rw [heq]
      rfl

theorem Hushes.takeVideo (h : Hushes least muted s t) (frame : VideoFrame) :
    (s.takeVideo frame).1 = (t.takeVideo frame).1 ∧
      Hushes least muted (s.takeVideo frame).2 (t.takeVideo frame).2 := by
  obtain ⟨rfl, hall⟩ := h
  have hcalls := t.calls_takeVideo frame
  have hdraw (u : Stage (Traced (Devices K S D))) : Console.draw u.console frame =
      ((Screen.draw u.console.inner.screen frame).1,
        ⟨{ u.console.inner with screen := (Screen.draw u.console.inner.screen frame).2 },
          u.console.calls.push (.draw frame (Screen.draw u.console.inner.screen frame).1)⟩) := rfl
  have hlog : (t.takeVideo frame).2.log = t.log := by
    rw [Stage.takeVideo, hdraw]
    rcases Screen.draw t.console.inner.screen frame with ⟨_ | _, _⟩ <;> rfl
  have hboth : (t.hushed least muted).takeVideo frame =
      ((t.takeVideo frame).1, (t.takeVideo frame).2.hushed least muted) := by
    have hscreen : (t.hushed least muted).console.inner.screen = t.console.inner.screen := rfl
    rw [Stage.takeVideo, Stage.takeVideo, hdraw, hdraw, hscreen]
    rcases Screen.draw t.console.inner.screen frame with ⟨_ | _, _⟩ <;> rfl
  rw [hboth]
  exact ⟨rfl, rfl, hall.silent hlog hcalls rfl⟩

end Stage

namespace Host

variable {K S D : Type} [Keypad K] [Speaker S] [Screen D] {least : Level} {muted : Bool}

omit [Keypad K] [Speaker S] [Screen D] in
theorem twin_of_silent {α : Type}
    {f : Stage (Traced (Devices K S D)) → Except Error α × Stage (Traced (Devices K S D))}
    (hf : ∀ t, f (t.hushed least muted) = ((f t).1, (f t).2.hushed least muted))
    (hlog : ∀ t, (f t).2.log = t.log)
    (hcalls : ∀ t, ∃ added, (f t).2.calls = t.calls ++ added ∧ added.filterMap Call.line? = []) :
    Stage.Twin (fun _ ↦ False) (Stage.Hushes least muted) f f := by
  rintro s t ⟨rfl, hall⟩
  obtain ⟨added, hadded, hnone⟩ := hcalls t
  rw [hf t]
  exact .inl ⟨rfl, rfl, hall.silent (hlog t) hadded hnone⟩

theorem twins_hushed : Twins (fun _ ↦ False)
    (Stage.Hushes least muted : Stage (Traced (Devices K S D)) → _ → Prop) where
  take := twin_of_silent (fun _ ↦ rfl) (fun _ ↦ rfl) fun t ↦ ⟨_, t.calls_takeCommands, rfl⟩
  poll := twin_of_silent (fun _ ↦ rfl) (fun _ ↦ rfl) fun t ↦ ⟨_, t.calls_poll, rfl⟩
  present frames := by
    intro s t h
    exact .inl ((h.takeAudio frames.1).takeVideo frames.2)
  redraw := twin_of_silent (fun _ ↦ rfl) (fun _ ↦ rfl) fun t ↦ ⟨_, t.calls_redraw, rfl⟩
  stop := twin_of_silent (fun _ ↦ rfl) (fun _ ↦ rfl) fun t ↦ ⟨_, t.calls_stopSound, rfl⟩
  overlay := by
    rintro s t lines ⟨rfl, hall⟩
    exact ⟨rfl, hall.silent rfl (t.calls_setOverlay lines) rfl⟩
  report s t m h := h.report m

def hushed (least : Level) (muted : Bool) (h : Host (Traced (Devices K S D))) :
    Host (Traced (Devices K S D)) :=
  { h with stage := h.stage.hushed least muted }

omit [Keypad K] [Speaker S] [Screen D] in
theorem Alike.eq_hushed {h h' : Host (Traced (Devices K S D))}
    (ha : Alike (Stage.Hushes least muted) h h') : h = h'.hushed least muted := by
  obtain ⟨hmachine, hdesk, hstage⟩ := ha
  cases h
  cases h'
  cases hmachine
  cases hdesk
  rw [hushed, ← hstage.eq]

theorem setUp_of_error {C : Type} [Console C] {config : Config} {console : C} {m : Moment}
    {e : Error} (hs : start config console m = .error e) :
    setUp m.files (initial config console m) = .error e (initial config console m) := by
  rw [start_eq] at hs
  generalize initial config console m = h at hs ⊢
  dsimp only at hs
  by_cases he : h.desk.library.isEmpty = true
  · rw [if_pos he] at hs
    cases hs
  · rw [if_neg he] at hs
    rw [setUp, bind_eq_of_ok (getDesk_apply h), if_neg he]
    rcases loadCurrent_cases m.files h with ⟨e', -, hl⟩ | ⟨path, rom, memory, -, -, hl⟩ |
      ⟨path, rom, e', -, -, hl⟩ <;> simp only [outcome, hl] at hs <;> cases hs
    exact bind_eq_of_error hl _

theorem hushes_start (config : Config) (keypad : K) (speaker : S) (screen : D) (m : Moment)
    (least : Level) (muted : Bool) :
    let console (log : Log) : Traced (Devices K S D) := ⟨⟨keypad, speaker, screen, log⟩, #[]⟩
    (∃ e, start config (console ⟨least, muted, #[]⟩) m = .error e ∧
      start config (console {}) m = .error e) ∨
    ∃ h' h, start config (console ⟨least, muted, #[]⟩) m = .ok h' ∧
      start config (console {}) m = .ok h ∧ Alike (Stage.Hushes least muted) h' h := by
  intro console
  apply twins_hushed.start
  refine ⟨?_, ⟨rfl, rfl⟩, rfl⟩
  cases muted <;> rfl

theorem hushes_requests {h h' : Host (Traced (Devices K S D))}
    (ha : Alike (Stage.Hushes least muted) h' h) (requests : List Request) :
    outcomes requests h' = outcomes requests h ∧
      Alike (Stage.Hushes least muted) (afterAll requests h') (afterAll requests h) := by
  have hnone (r : Except Error Bool) : ¬Excused (fun _ ↦ False) r := by
    rintro ⟨_, _, hfalse⟩
    exact hfalse
  apply twins_hushed.requests requests ha
  · intro r _
    exact hnone r
  · intro r _
    exact hnone r

/-- Whatever the settings of its log, a host is the same: it starts or fails to start alike, serves
requests with the same results, and ends with the same machine, desk, devices and calls. Only its
log differs, and holds those of the messages reported that the settings let through. -/
theorem settings_only_filter (config : Config) (keypad : K) (speaker : S) (screen : D)
    (m : Moment) :
    let console (least : Level) (muted : Bool) : Traced (Devices K S D) :=
      ⟨⟨keypad, speaker, screen, ⟨least, muted, #[]⟩⟩, #[]⟩
    (∃ e, ∀ least muted, start config (console least muted) m = .error e ∧
      after (setUp m.files) (initial config (console least muted) m) =
        initial config (console least muted) m) ∨
    ∃ h, start config (console .info false) m = .ok h ∧ ∀ least muted,
      start config (console least muted) m = .ok (h.hushed least muted) ∧
      ∀ requests,
        outcomes requests (h.hushed least muted) = outcomes requests h ∧
        afterAll requests (h.hushed least muted) = (afterAll requests h).hushed least muted ∧
        (afterAll requests h).stage.log.lines.toList =
          (afterAll requests h).stage.calls.filterMap Call.line? := by
  intro console
  have hstart (least : Level) (muted : Bool) :=
    hushes_start config keypad speaker screen m least muted
  cases hplain : start config (console .info false) m with
  | error e =>
    refine .inl ⟨e, fun least muted ↦ ?_⟩
    have herror : start config (console least muted) m = .error e := by
      rcases hstart least muted with ⟨e', hs, hs'⟩ | ⟨h', h, hs, hs', -⟩
      · rw [hs, ← hs']
        exact hplain
      · cases hplain.symm.trans hs'
    refine ⟨herror, ?_⟩
    rw [after, setUp_of_error herror]
  | ok h =>
    refine .inr ⟨h, rfl, fun least muted ↦ ?_⟩
    rcases hstart least muted with ⟨e, hs, hs'⟩ | ⟨h', h₁, hs, hs', ha⟩
    · cases hplain.symm.trans hs'
    · cases hplain.symm.trans hs'
      rw [← ha.eq_hushed]
      refine ⟨hs, fun requests ↦ ?_⟩
      obtain ⟨houtcomes, hafter⟩ := hushes_requests ha requests
      exact ⟨houtcomes, hafter.eq_hushed, hafter.stage.all.lines⟩

end Host

end CopyJump
