import CopyJump.Device.Scripted
import CopyJump.Proofs.StageCalls
import CopyJump.Proofs.TwinHosts

namespace CopyJump

def Call.isShown : Call → Bool
  | .play .. | .stop _ | .report _ => false
  | _ => true

def Call.isFailedStop : Call → Bool
  | .stop (.error _) => true
  | _ => false

def Error.isSound : Error → Bool
  | .sound _ => true
  | _ => false

/-- A stage without its sound: the other devices, and the calls that are for them. -/
structure View (K D : Type) where
  keypad : K
  screen : D
  lastVideo : Option VideoFrame
  calls : List Call

namespace View

variable {K D : Type} [Keypad K] [Screen D]

def take (v : View K D) : Except Error (List HostCommand) × View K D :=
  let (result, keypad) := Keypad.takeCommands v.keypad
  (result.mapError .unavailable, { v with keypad, calls := v.calls ++ [.take result] })

def poll (v : View K D) : Except Error UInt16 × View K D :=
  let (result, keypad) := Keypad.poll v.keypad
  (result.mapError .unavailable, { v with keypad, calls := v.calls ++ [.poll result] })

def draw (v : View K D) (frame : VideoFrame) : Except Error Unit × View K D :=
  let (result, screen) := Screen.draw v.screen frame
  (result.mapError .unavailable, { v with screen, calls := v.calls ++ [.draw frame result] })

def takeVideo (v : View K D) (frame : VideoFrame) : Except Error Unit × View K D :=
  match v.draw frame with
  | (.ok (), v) => (.ok (), { v with lastVideo := some frame })
  | (.error e, v) => (.error e, v)

end View

namespace Stage

variable {K S D : Type}

def view (s : Stage (Traced (Devices K S D))) : View K D :=
  ⟨s.console.inner.keypad, s.console.inner.screen, s.lastVideo, s.calls.filter Call.isShown⟩

variable [Keypad K] [Speaker S] [Screen D] (s : Stage (Traced (Devices K S D)))

theorem view_takeCommands : (s.takeCommands.1, s.takeCommands.2.view) = s.view.take := by
  rw [view, calls_takeCommands, List.filter_append]
  rfl

theorem view_poll : (s.poll.1, s.poll.2.view) = s.view.poll := by
  rw [view, calls_poll, List.filter_append]
  rfl

theorem view_redraw :
    (s.redraw.1, s.redraw.2.view) = s.view.draw (s.view.lastVideo.getD .blank) := by
  rw [view, calls_redraw, List.filter_append]
  rfl

theorem view_report (m : Message) : (s.report m).view = s.view := by
  rw [view, calls_report, List.filter_append]
  exact congrArg (View.mk _ _ _) (List.append_nil _)

theorem view_setOverlay (lines : List String) :
    (s.setOverlay lines).view =
      { s.view with
        screen := Screen.setOverlay s.view.screen lines
        calls := s.view.calls ++ [.overlay lines] } := by
  rw [view, calls_setOverlay, List.filter_append]
  rfl

theorem view_stopSound : s.stopSound.2.view = s.view := by
  rw [view, calls_stopSound, List.filter_append]
  exact congrArg (View.mk _ _ _) (List.append_nil _)

theorem view_takeAudio (frame : AudioFrame) : (s.takeAudio frame).2.view = s.view := by
  have hcalls : (s.soundCalls frame).filter Call.isShown = [] := by
    unfold soundCalls
    split
    · split <;> rfl
    · rfl
  have hrest : (s.takeAudio frame).2.console.inner.keypad = s.console.inner.keypad ∧
      (s.takeAudio frame).2.console.inner.screen = s.console.inner.screen ∧
      (s.takeAudio frame).2.lastVideo = s.lastVideo := by
    have hplay : Console.play s.console frame = ((Speaker.play s.console.inner.speaker frame).1,
        ⟨{ s.console.inner with speaker := (Speaker.play s.console.inner.speaker frame).2 },
          s.console.calls.push (.play frame (Speaker.play s.console.inner.speaker frame).1)⟩) := rfl
    unfold takeAudio
    rw [hplay]
    split
    · rcases Speaker.play s.console.inner.speaker frame with ⟨_ | _, _⟩ <;> exact ⟨rfl, rfl, rfl⟩
    · exact ⟨rfl, rfl, rfl⟩
  obtain ⟨hkeypad, hscreen, hlast⟩ := hrest
  rw [view, calls_takeAudio, List.filter_append, hcalls, List.append_nil, hkeypad, hscreen, hlast]
  rfl

theorem view_takeVideo (frame : VideoFrame) :
    ((s.takeVideo frame).1, (s.takeVideo frame).2.view) = s.view.takeVideo frame := by
  have hdraw : Console.draw s.console frame = ((Screen.draw s.console.inner.screen frame).1,
      ⟨{ s.console.inner with screen := (Screen.draw s.console.inner.screen frame).2 },
        s.console.calls.push (.draw frame (Screen.draw s.console.inner.screen frame).1)⟩) := rfl
  have hcalls (result : Except Fault Unit) :
      (s.console.calls.push (.draw frame result)).toList.filter Call.isShown =
        s.console.calls.toList.filter Call.isShown ++ [.draw frame result] := by
    rw [Array.toList_push, List.filter_append]
    rfl
  have hview : s.view.screen = s.console.inner.screen := rfl
  rw [takeVideo, hdraw, View.takeVideo, View.draw, hview]
  rcases Screen.draw s.console.inner.screen frame with ⟨_ | _, _⟩ <;>
    simp only [Except.mapError, view, calls, hcalls]

theorem view_present (frames : AudioFrame × VideoFrame) :
    ((s.present frames).1, (s.present frames).2.view) = s.view.takeVideo frames.2 := by
  have h := (s.takeAudio frames.1).2.view_takeVideo frames.2
  rwa [view_takeAudio] at h

end Stage

namespace Host

variable {K S T D : Type} [Keypad K] [Speaker S] [Speaker T] [Screen D]

def SameView (s : Stage (Traced (Devices K S D))) (t : Stage (Traced (Devices K T D))) : Prop :=
  s.view = t.view

omit [Keypad K] [Speaker S] [Speaker T] [Screen D] in
theorem twin_of_view {α : Type} {excused : Error → Prop}
    {f : Stage (Traced (Devices K S D)) → Except Error α × Stage (Traced (Devices K S D))}
    {g : Stage (Traced (Devices K T D)) → Except Error α × Stage (Traced (Devices K T D))}
    (F : View K D → Except Error α × View K D)
    (hf : ∀ s, ((f s).1, (f s).2.view) = F s.view)
    (hg : ∀ t, ((g t).1, (g t).2.view) = F t.view) :
    Stage.Twin excused SameView f g := by
  intro s t hst
  have hs := hf s
  rw [hst, ← hg t] at hs
  exact .inl (Prod.mk.inj hs)

/-- Hosts that differ in their speakers look the same, but for failures of a stop. -/
theorem twins_sameView : Twins (fun e ↦ e.isSound = true)
    (SameView : Stage (Traced (Devices K S D)) → Stage (Traced (Devices K T D)) → Prop) where
  take := twin_of_view View.take Stage.view_takeCommands Stage.view_takeCommands
  poll := twin_of_view View.poll Stage.view_poll Stage.view_poll
  present frames := twin_of_view (View.takeVideo · frames.2) (Stage.view_present · frames)
    (Stage.view_present · frames)
  redraw := twin_of_view (fun v ↦ v.draw (v.lastVideo.getD .blank)) Stage.view_redraw
    Stage.view_redraw
  stop s t hst := by
    rw [s.stopSound_fst, t.stopSound_fst]
    cases (Console.stop s.console.inner).1 with
    | error reason => exact .inr (.inl ⟨.sound reason, rfl, rfl⟩)
    | ok _ =>
      cases (Console.stop t.console.inner).1 with
      | error reason => exact .inr (.inr ⟨.sound reason, rfl, rfl⟩)
      | ok _ =>
        refine .inl ⟨rfl, ?_⟩
        rw [SameView, s.view_stopSound, t.view_stopSound, hst]
  overlay s t lines hst := by
    rw [SameView, s.view_setOverlay, t.view_setOverlay, hst]
  report s t m hst := by
    rw [SameView, s.view_report, t.view_report, hst]

def failedStops {C : Type} (h : Host (Traced C)) : Nat := h.stage.calls.countP Call.isFailedStop

def soundErrors (fault : Option Error) : Nat := (fault.any Error.isSound).toNat

variable {C : Type}

theorem failedStops_onStage {α : Type} {h : Host (Traced C)} {added : List Call}
    {f : Stage (Traced C) → Except Error α × Stage (Traced C)}
    (hcalls : (f h.stage).2.calls = h.stage.calls ++ added)
    (hadded : added.countP Call.isFailedStop = soundErrors (error? (f h.stage).1)) :
    (after (onStage f) h).failedStops = h.failedStops + soundErrors (fault? (onStage f) h) := by
  rw [fault?, outcome_onStage, after_onStage, failedStops, failedStops, hcalls, List.countP_append,
    hadded]

theorem failedStops_eq {h h' : Host (Traced C)} {added : List Call}
    (hcalls : h'.stage.calls = h.stage.calls ++ added)
    (hadded : added.countP Call.isFailedStop = 0) : h'.failedStops = h.failedStops := by
  rw [failedStops, failedStops, hcalls, List.countP_append, hadded, Nat.add_zero]

theorem soundErrors_unavailable {α : Type} (result : Except Fault α) :
    soundErrors (error? (result.mapError Error.unavailable)) = 0 := by
  cases result <;> rfl

variable [Console C]

theorem failedStops_stopSound (h : Host (Traced C)) :
    (after (onStage Stage.stopSound) h).failedStops =
      h.failedStops + soundErrors (fault? (onStage Stage.stopSound) h) := by
  refine failedStops_onStage h.stage.calls_stopSound ?_
  rw [Stage.stopSound_fst]
  cases (Console.stop h.stage.console.inner).1 <;> rfl

theorem countP_soundCalls (s : Stage (Traced C)) (frame : AudioFrame) :
    (s.soundCalls frame).countP Call.isFailedStop = 0 := by
  unfold Stage.soundCalls
  split
  · split <;> rfl
  · rfl

theorem failedStops_runFrame (h : Host (Traced C)) :
    (after runFrame h).failedStops = h.failedStops + soundErrors (fault? runFrame h) := by
  have hpoll := h.stage.calls_poll
  have hfst := h.stage.poll_fst
  rcases runFrame_cases h with ⟨e, s, hp, hrun⟩ | ⟨keys, s, memory, hp, -, hout, hafter⟩ <;>
    rw [hp] at hpoll hfst
  · have hnone : soundErrors (error? (.error e : Except Error UInt16)) = 0 := by
      dsimp only at hfst
      rw [hfst, soundErrors_unavailable]
    dsimp only [error?] at hnone
    rw [fault?, outcome, after, hrun]
    dsimp only [error?]
    rw [hnone]
    exact failedStops_eq hpoll rfl
  · rw [fault?, hout, hafter, Stage.present_fst, soundErrors_unavailable, Nat.add_zero]
    have hcalls := s.calls_present (Machine.frames memory)
    rw [hpoll, List.append_assoc, List.append_assoc] at hcalls
    refine failedStops_eq hcalls ?_
    rw [List.countP_append, List.countP_append, countP_soundCalls]
    rfl

theorem failedStops_law : Law (fun _ ↦ True) fun (h : Host (Traced C)) fault h' ↦
    h'.failedStops = h.failedStops + soundErrors fault where
  refl _ := rfl
  trans {h h' h'' fault} hx hy := by
    have hnone : soundErrors none = 0 := rfl
    omega
  take h := failedStops_onStage h.stage.calls_takeCommands (soundErrors_unavailable _).symm
  move _ _ _ := rfl
  reload h files _ := by
    rcases reload_cases files h with ⟨e, -, hl⟩ | ⟨path, rom, memory, -, -, hl⟩ |
      ⟨path, rom, e, -, -, hl⟩ <;> simp only [fault?, outcome, after, hl] <;>
      exact failedStops_eq (Stage.calls_report _ _) rfl
  frameRate h rate := by
    rcases setFrameRate_cases rate h with hrate | hrate <;>
      simp only [fault?, outcome, after, hrate]
    · rfl
    · exact failedStops_eq (Stage.calls_report _ _) rfl
  pause h := by
    have htoggled : h.toggled.failedStops = h.failedStops :=
      failedStops_eq (Stage.calls_report _ _) rfl
    have hstop := failedStops_stopSound h.toggled
    rw [htoggled] at hstop
    rcases togglePause_cases h with hpause | hpause <;> simp only [fault?, outcome, after, hpause]
    · exact htoggled
    · exact hstop
  help _ := rfl
  info _ := rfl
  quit _ := rfl
  overlay h _ := failedStops_eq (h.stage.calls_setOverlay _) rfl
  redraw h _ _ := failedStops_onStage h.stage.calls_redraw (soundErrors_unavailable _).symm
  frame h _ _ := failedStops_runFrame h
  count _ _ := rfl
  stop h _ := failedStops_stopSound h

theorem failedStops_afterAll (requests : List Request) (h : Host (Traced C)) :
    (afterAll requests h).failedStops =
      h.failedStops + (outcomes requests h).countP fun r ↦ (error? r).any Error.isSound := by
  induction requests generalizing h with
  | nil => rfl
  | cons r rs ih =>
    have hserve := failedStops_law.serve r (fun _ _ ↦ trivial) h
    have hrest := ih (after (serve r) h)
    have hone : soundErrors (fault? (serve r) h) =
        if (error? (outcome (serve r) h)).any Error.isSound then 1 else 0 := by
      rw [soundErrors, fault?]
      cases (error? (outcome (serve r) h)).any Error.isSound <;> rfl
    rw [outcomes, List.countP_cons, ← hone]
    change (afterAll rs (after (serve r) h)).failedStops = _
    omega

theorem failedStops_eq_zero_iff {h : Host (Traced C)} (hh : h.failedStops = 0)
    (requests : List Request) :
    (afterAll requests h).failedStops = 0 ↔
      ∀ r ∈ outcomes requests h, ¬Excused (fun e ↦ e.isSound = true) r := by
  have hsound (r : Except Error Bool) :
      (error? r).any Error.isSound = true ↔ Excused (fun e ↦ e.isSound = true) r := by
    cases r with
    | ok b =>
      constructor
      · rintro ⟨⟩
      · rintro ⟨_, ⟨⟩, _⟩
    | error e =>
      constructor
      · exact fun he ↦ ⟨e, rfl, he⟩
      · rintro ⟨_, ⟨⟩, he⟩
        exact he
  rw [failedStops_afterAll, hh, Nat.zero_add, List.countP_eq_zero]
  simp only [hsound]

theorem failedStops_start {config : Config} {console : C} {m : Moment} {h : Host (Traced C)}
    (hs : start config (⟨console, #[]⟩ : Traced C) m = .ok h) : h.failedStops = 0 := by
  obtain ⟨h₀, h₁, hinitial, rfl, hcases⟩ := start_cases hs
  have hreported : ∃ m, h₁.stage = h₀.stage.report m := by
    rcases hcases with rfl | ⟨path, rom, memory, -, -, rfl⟩ | ⟨path, e, rfl⟩ <;> exact ⟨_, rfl⟩
  obtain ⟨message, hstage⟩ := hreported
  have hoverlaid : h₁.overlaid.failedStops = h₁.failedStops :=
    failedStops_eq (h₁.stage.calls_setOverlay _) rfl
  have hnone : h₀.failedStops = 0 := by
    rw [hinitial]
    rfl
  rw [hoverlaid, failedStops, hstage, Stage.calls_report, List.countP_append]
  exact hnone

/-- Two hosts that differ in their speakers alone start alike. If no stop of the one fails, then the
other has the same results, machine, desk, keys, commands, pictures and overlays if and only if no
stop of its own fails; what comes of plays does not matter. -/
theorem alike_iff_no_failed_stop (config : Config) (keypad : K) (speaker : S) (speaker' : T)
    (screen : D) (log : Log) (m : Moment) :
    let console : Traced (Devices K S D) := ⟨⟨keypad, speaker, screen, log⟩, #[]⟩
    let console' : Traced (Devices K T D) := ⟨⟨keypad, speaker', screen, log⟩, #[]⟩
    (∃ e, start config console m = .error e ∧ start config console' m = .error e) ∨
      ∃ h h', start config console m = .ok h ∧ start config console' m = .ok h' ∧
        ∀ requests, (afterAll requests h').failedStops = 0 →
          ((outcomes requests h = outcomes requests h' ∧
              Alike SameView (afterAll requests h) (afterAll requests h')) ↔
            (afterAll requests h).failedStops = 0) := by
  intro console console'
  have twins : Twins (fun e ↦ e.isSound = true)
      (SameView : Stage (Traced (Devices K S D)) → Stage (Traced (Devices K T D)) → Prop) :=
    twins_sameView
  have hview : SameView (⟨console, true, none⟩ : Stage _) (⟨console', true, none⟩ : Stage _) := rfl
  rcases twins.start hview config m with ⟨e, he, he'⟩ | ⟨h, h', hs, hs', halike⟩
  · exact .inl ⟨e, he, he'⟩
  refine .inr ⟨h, h', hs, hs', fun requests hquiet ↦ ?_⟩
  have hquiet' := (failedStops_eq_zero_iff (failedStops_start hs') requests).mp hquiet
  rw [failedStops_eq_zero_iff (failedStops_start hs) requests]
  constructor
  · rintro ⟨ho, -⟩
    rwa [ho]
  · intro hnone
    exact twins.requests requests halike hnone hquiet'

/-- A stop that fails when the host is paused ends the tick with an error, and the command after it
is lost. -/
theorem failed_stop_drops_quit :
    let m : Moment := ⟨0, [], []⟩
    let keypad : ScriptedKeypad := { batches := [some [.togglePause, .quit]] }
    let screen : ScriptedScreen := {}
    let speaker : ScriptedSpeaker := { failStop := [1] }
    let speaker' : ScriptedSpeaker := {}
    ∃ h h', start {} (⟨⟨keypad, speaker, screen, {}⟩, #[]⟩ : Traced (Devices _ _ _)) m = .ok h ∧
      start {} (⟨⟨keypad, speaker', screen, {}⟩, #[]⟩ : Traced (Devices _ _ _)) m = .ok h' ∧
      outcomes [.tick m] h = [.error (.sound "speaker stuck")] ∧
      outcomes [.tick m] h' = [.ok false] ∧
      (afterAll [.tick m] h).desk.quit = false ∧ (afterAll [.tick m] h').desk.quit = true := by
  intro m keypad screen speaker speaker'
  have hempty : (library {} m.files).isEmpty = true := by decide +kernel
  exact ⟨_, _, start_eq_empty hempty _, start_eq_empty hempty _, rfl, rfl, rfl, rfl⟩

end Host

end CopyJump
