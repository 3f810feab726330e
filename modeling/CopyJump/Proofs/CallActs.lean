import CopyJump.Proofs.StageCalls

namespace CopyJump

theorem foldl_eq_self {α β : Type} {f : α → β → α} {l : List β}
    (hf : ∀ b ∈ l, ∀ a, f a b = a) (a : α) : l.foldl f a = a :=
  (List.foldl_ext f (fun a _ ↦ a) a fun a b hb ↦ hf b hb a).trans (List.foldl_fixed l)

def Message.isNews : Message → Bool
  | .paused | .resumed | .soundDisabled _ => false
  | _ => true

namespace Call

def isSpeaker : Call → Bool
  | .play .. | .stop _ => true
  | _ => false

def isStop : Call → Bool
  | .stop _ => true
  | _ => false

/-- Calls that neither run a frame nor touch the speaker or the picture. -/
def isIdle : Call → Bool
  | .take _ | .overlay _ | .poll (.error _) => true
  | .report m => m.isNews
  | _ => false

/-- The error that a request ends with if a call fails. A play that fails ends nothing. -/
def error? : Call → Option Error
  | .take (.error fault) | .poll (.error fault) | .draw _ (.error fault) =>
    some (.unavailable fault)
  | .stop (.error reason) => some (.sound reason)
  | _ => none

end Call

/-- The calls for the sound of a frame, with whether the speaker is in use before and after. -/
inductive Sounds (frame : AudioFrame) : Bool → List Call → Bool → Prop
  | off : Sounds frame false [] false
  | played : Sounds frame true [.play frame (.ok ())] true
  | broke (reason : String) :
      Sounds frame true [.play frame (.error reason), .report (.soundDisabled reason)] false

namespace Stage

variable {C : Type} [Console C] (s : Stage (Traced C))

theorem takeAudio_spec (frame : AudioFrame) :
    Sounds frame s.soundOk (s.soundCalls frame) (s.takeAudio frame).2.soundOk ∧
      (s.takeAudio frame).2.lastVideo = s.lastVideo := by
  unfold takeAudio soundCalls
  rw [play_console]
  cases hok : s.soundOk with
  | false =>
    rw [if_neg Bool.false_ne_true, if_neg Bool.false_ne_true]
    refine ⟨?_, rfl⟩
    rw [hok]
    exact .off
  | true =>
    rw [if_pos rfl, if_pos rfl]
    rcases Console.play s.console.inner frame with ⟨reason | _, inner⟩
    · exact ⟨.broke reason, rfl⟩
    · exact ⟨.played, rfl⟩

def shownAfter (last : Option VideoFrame) (frame : VideoFrame) :
    Except Fault Unit → Option VideoFrame
  | .ok () => some frame
  | .error _ => last

theorem takeVideo_spec (frame : VideoFrame) :
    (s.takeVideo frame).2.soundOk = s.soundOk ∧
      (s.takeVideo frame).2.lastVideo =
        shownAfter s.lastVideo frame (Console.draw s.console.inner frame).1 := by
  have hdraw : (Console.draw s.console frame).1 = (Console.draw s.console.inner frame).1 := rfl
  rw [← hdraw, takeVideo]
  rcases Console.draw s.console frame with ⟨_ | _, _⟩ <;> exact ⟨rfl, rfl⟩

theorem present_spec (frames : AudioFrame × VideoFrame) :
    let s' := (s.present frames).2
    ∃ sound result, (s.present frames).1 = result.mapError .unavailable ∧
      s'.calls = s.calls ++ (sound ++ [.draw frames.2 result]) ∧
      Sounds frames.1 s.soundOk sound s'.soundOk ∧
      s'.lastVideo = shownAfter s.lastVideo frames.2 result := by
  intro s'
  obtain ⟨hsounds, hlast⟩ := s.takeAudio_spec frames.1
  obtain ⟨hkept, hshown⟩ := (s.takeAudio frames.1).2.takeVideo_spec frames.2
  have hcalls := s.calls_present frames
  rw [List.append_assoc] at hcalls
  refine ⟨s.soundCalls frames.1, _, s.present_fst frames, hcalls, ?_, ?_⟩
  · exact hkept ▸ hsounds
  · rw [← hlast]
    exact hshown

end Stage

namespace Host

variable {C : Type}

structure Kept (h h' : Host C) : Prop where
  soundOk : h'.stage.soundOk = h.stage.soundOk
  lastVideo : h'.stage.lastVideo = h.stage.lastVideo
  counter : h'.desk.counter = h.desk.counter
  framesRun : h'.machine.framesRun = h.machine.framesRun

theorem Kept.refl (h : Host C) : Kept h h := ⟨rfl, rfl, rfl, rfl⟩

theorem Kept.trans {h h' h'' : Host C} (hk : Kept h h') (hk' : Kept h' h'') : Kept h h'' :=
  ⟨hk'.soundOk.trans hk.soundOk, hk'.lastVideo.trans hk.lastVideo, hk'.counter.trans hk.counter,
    hk'.framesRun.trans hk.framesRun⟩

/-- Nothing was done but to say things, which are no matter of the speaker or of a pause. -/
structure Quiet (h h' : Host (Traced C)) : Prop extends Kept h h' where
  calls : ∃ said : List Message, (∀ m ∈ said, m.isNews = true) ∧
    h'.stage.calls = h.stage.calls ++ said.map .report
  paused : h'.desk.paused = h.desk.paused
  quit : h'.desk.quit = h.desk.quit

theorem Quiet.of_said {h h' : Host (Traced C)} (hk : Kept h h') {m : Message}
    (hm : m.isNews = true) (hcalls : h'.stage.calls = h.stage.calls ++ [.report m])
    (hpaused : h'.desk.paused = h.desk.paused) (hquit : h'.desk.quit = h.desk.quit) :
    Quiet h h' :=
  ⟨hk, ⟨[m], by simpa using hm, hcalls⟩, hpaused, hquit⟩

theorem Quiet.of_silent {h h' : Host (Traced C)} (hk : Kept h h')
    (hcalls : h'.stage.calls = h.stage.calls) (hpaused : h'.desk.paused = h.desk.paused)
    (hquit : h'.desk.quit = h.desk.quit) : Quiet h h' :=
  ⟨hk, ⟨[], by simp, by simp [hcalls]⟩, hpaused, hquit⟩

theorem Quiet.trans {h h' h'' : Host (Traced C)} (hq : Quiet h h') (hq' : Quiet h' h'') :
    Quiet h h'' := by
  obtain ⟨hk, ⟨said, hsaid, hcalls⟩, hpaused, hquit⟩ := hq
  obtain ⟨hk', ⟨said', hsaid', hcalls'⟩, hpaused', hquit'⟩ := hq'
  refine ⟨hk.trans hk', ⟨said ++ said', ?_, ?_⟩, hpaused'.trans hpaused, hquit'.trans hquit⟩
  · intro m hm
    rcases List.mem_append.mp hm with hm | hm
    · exact hsaid m hm
    · exact hsaid' m hm
  · rw [hcalls', hcalls, List.map_append, List.append_assoc]

/-- What a part of a request does, by the calls it makes. -/
inductive Act (h h' : Host (Traced C)) : List Call → Prop
  | idle {added : List Call} (hadded : ∀ c ∈ added, c.isIdle = true)
      (hsound : h'.stage.soundOk = h.stage.soundOk)
      (hvideo : h'.stage.lastVideo = h.stage.lastVideo)
      (hpaused : h'.desk.paused = h.desk.paused)
      (hquit : h.desk.quit = true → h'.desk.quit = true) : Act h h' added
  | resume (hsound : h'.stage.soundOk = h.stage.soundOk)
      (hvideo : h'.stage.lastVideo = h.stage.lastVideo) (hpaused : h'.desk.paused = false)
      (hquit : h'.desk.quit = h.desk.quit) : Act h h' [.report .resumed]
  | pause (result : Except String Unit) (hsound : h'.stage.soundOk = h.stage.soundOk)
      (hvideo : h'.stage.lastVideo = h.stage.lastVideo)
      (hquit : h'.desk.quit = h.desk.quit) : Act h h' [.report .paused, .stop result]
  | redraw (result : Except Fault Unit) (hsound : h'.stage.soundOk = h.stage.soundOk)
      (hvideo : h'.stage.lastVideo = h.stage.lastVideo) (hdesk : h'.desk = h.desk) :
      Act h h' [.draw (h.stage.lastVideo.getD .blank) result]
  | frame (keys : UInt16) (frames : AudioFrame × VideoFrame) {sound : List Call}
      (result : Except Fault Unit) (hsound : Sounds frames.1 h.stage.soundOk sound h'.stage.soundOk)
      (hvideo : h'.stage.lastVideo = Stage.shownAfter h.stage.lastVideo frames.2 result)
      (hpaused : h.desk.paused = false) (hquit : h.desk.quit = false) (hdesk : h'.desk = h.desk) :
      Act h h' (.poll (.ok keys) :: (sound ++ [.draw frames.2 result]))
  | stop (result : Except String Unit) (hsound : h'.stage.soundOk = h.stage.soundOk)
      (hvideo : h'.stage.lastVideo = h.stage.lastVideo) (hquit : h.desk.quit = true)
      (hdesk : h'.desk = h.desk) : Act h h' [.stop result]

theorem Quiet.act {h h' : Host (Traced C)} (hq : Quiet h h') :
    ∃ added, h'.stage.calls = h.stage.calls ++ added ∧ Act h h' added := by
  obtain ⟨said, hsaid, hcalls⟩ := hq.calls
  refine ⟨said.map .report, hcalls, .idle ?_ hq.soundOk hq.lastVideo hq.paused hq.quit.trans⟩
  intro c hc
  obtain ⟨m, hm, rfl⟩ := List.mem_map.mp hc
  exact hsaid m hm

variable [Console C]

theorem quiet_reload (files : FileTree) (h : Host (Traced C)) :
    outcome (reload files) h = .ok () ∧ Quiet h (after (reload files) h) := by
  rcases reload_cases files h with ⟨e, -, hl⟩ | ⟨path, rom, memory, -, -, hl⟩ |
    ⟨path, rom, e, -, -, hl⟩ <;> simp only [outcome, after, hl, true_and]
  · exact .of_said ⟨rfl, rfl, rfl, rfl⟩ rfl (Stage.calls_report _ (.notLoaded e)) rfl rfl
  · exact .of_said ⟨rfl, rfl, rfl, rfl⟩ rfl (Stage.calls_report _ (.loaded _ rom)) rfl rfl
  · exact .of_said ⟨rfl, rfl, rfl, rfl⟩ rfl (Stage.calls_report _ (.skipped path e)) rfl rfl

theorem quiet_setFrameRate (rate : Nat) (h : Host (Traced C)) :
    outcome (setFrameRate rate) h = .ok () ∧ Quiet h (after (setFrameRate rate) h) := by
  rcases setFrameRate_cases rate h with hrate | hrate <;>
    simp only [outcome, after, hrate, true_and]
  · exact .of_silent (.refl h) rfl rfl rfl
  · exact .of_said ⟨rfl, rfl, rfl, rfl⟩ rfl (Stage.calls_report _ (.frameRate _ _)) rfl rfl

theorem calls_toggled (h : Host (Traced C)) :
    h.toggled.stage.calls =
      h.stage.calls ++ [.report (if h.desk.paused then .resumed else .paused)] := by
  have hcalls := h.stage.calls_report (if !h.desk.paused then .paused else .resumed)
  cases hp : h.desk.paused <;> simp only [toggled, noted, hp] at hcalls ⊢ <;> exact hcalls

theorem togglePause_of_paused {h : Host C} (hp : h.desk.paused = true) :
    togglePause h = .ok () h.toggled := by
  rw [togglePause_eq, hp, if_pos rfl]

theorem togglePause_of_running {h : Host C} (hp : h.desk.paused = false) :
    togglePause h = onStage Stage.stopSound h.toggled := by
  rw [togglePause_eq, hp, if_neg Bool.false_ne_true]

theorem after_togglePause_of_running {h : Host C} (hp : h.desk.paused = false) :
    after togglePause h = { h.toggled with stage := h.toggled.stage.stopSound.2 } := by
  rw [after, togglePause_of_running hp, ← after]
  exact after_onStage _ _

theorem calls_stopSound_toggled {h : Host (Traced C)} (hp : h.desk.paused = false) :
    h.toggled.stage.stopSound.2.calls = h.stage.calls ++
      [.report .paused, .stop (Console.stop h.toggled.stage.console.inner).1] := by
  have hcalls := h.calls_toggled
  rw [hp, if_neg Bool.false_ne_true] at hcalls
  rw [Stage.calls_stopSound, hcalls, List.append_assoc]
  rfl

theorem act_togglePause (h : Host (Traced C)) :
    ∃ added, (after togglePause h).stage.calls = h.stage.calls ++ added ∧
      Act h (after togglePause h) added := by
  cases hp : h.desk.paused with
  | true =>
    have hcalls := h.calls_toggled
    rw [hp, if_pos rfl] at hcalls
    simp only [after, togglePause_of_paused hp]
    exact ⟨_, hcalls, .resume rfl rfl (by simp [toggled, noted, hp]) rfl⟩
  | false =>
    rw [after_togglePause_of_running hp]
    exact ⟨_, calls_stopSound_toggled hp, .pause _ rfl rfl rfl⟩

theorem runFrame_calls (h : Host (Traced C)) :
    let h' := after runFrame h
    (∃ fault, h'.stage.calls = h.stage.calls ++ [.poll (.error fault)] ∧
      fault? runFrame h = some (.unavailable fault) ∧ h'.machine = h.machine ∧
      h'.desk = h.desk ∧ h'.stage.soundOk = h.stage.soundOk ∧
      h'.stage.lastVideo = h.stage.lastVideo) ∨
    (∃ keys frames sound result,
      h'.stage.calls = h.stage.calls ++ .poll (.ok keys) :: (sound ++ [.draw frames.2 result]) ∧
      fault? runFrame h = (Call.draw frames.2 result).error? ∧
      h.machine.frame keys = (.ok frames, h'.machine) ∧ h'.desk = h.desk ∧
      Sounds frames.1 h.stage.soundOk sound h'.stage.soundOk ∧
      h'.stage.lastVideo = Stage.shownAfter h.stage.lastVideo frames.2 result) := by
  intro h'
  have hpoll := h.stage.calls_poll
  have hfst := h.stage.poll_fst
  have hsound : h.stage.poll.2.soundOk = h.stage.soundOk := rfl
  have hvideo : h.stage.poll.2.lastVideo = h.stage.lastVideo := rfl
  -- The frame is run or not by what the poll gives, and only two of the four pairs can be.
  rcases runFrame_cases h with ⟨e, s, hp, hrun⟩ | ⟨keys, s, memory, hp, hmemory, hout, hafter⟩ <;>
    rw [hp] at hpoll hfst hsound hvideo <;> dsimp only at hpoll hfst hsound hvideo <;>
    cases hr : (Console.poll h.stage.console.inner).1 <;> rw [hr] at hpoll hfst <;> cases hfst
  · have hafter : h' = { h with stage := s } := by
      show after runFrame h = _
      rw [after, hrun]
    rw [hafter]
    refine .inl ⟨_, hpoll, ?_, rfl, rfl, hsound, hvideo⟩
    rw [fault?, outcome, hrun, error?]
  · obtain ⟨sound, result, hfst, hcalls, hsounds, hlast⟩ := s.present_spec (Machine.frames memory)
    rw [hpoll, List.append_assoc] at hcalls
    have hh' : h' = ⟨⟨memory, h.machine.framesRun + 1⟩, (s.present (Machine.frames memory)).2,
      h.desk⟩ := hafter
    rw [hh', fault?, hout, hfst, ← hsound, ← hvideo]
    refine .inr ⟨keys, Machine.frames memory, sound, result, hcalls, ?_, ?_, rfl, hsounds, hlast⟩
    · cases result <;> rfl
    · rw [hmemory]
      exact Machine.frame_eq _ _ _

theorem act_runFrame {h : Host (Traced C)} (hquit : h.desk.quit = false)
    (hpaused : h.desk.paused = false) :
    ∃ added, (after runFrame h).stage.calls = h.stage.calls ++ added ∧
      Act h (after runFrame h) added := by
  rcases h.runFrame_calls with ⟨fault, hcalls, -, -, hdesk, hsound, hvideo⟩ |
    ⟨keys, frames, sound, result, hcalls, -, -, hdesk, hsound, hvideo⟩
  · refine ⟨_, hcalls, .idle (by simp [Call.isIdle]) hsound hvideo ?_ ?_⟩ <;> rw [hdesk]
    exact id
  · exact ⟨_, hcalls, .frame keys frames result hsound hvideo hpaused hquit hdesk⟩

theorem law_of_acts {I : Host (Traced C) → Prop}
    (hact : ∀ {h h' added}, h'.stage.calls = h.stage.calls ++ added → Act h h' added →
      I h → I h') : Law (fun _ ↦ True) fun h _ h' ↦ I h → I h' where
  refl _ := id
  trans hx hy := hy ∘ hx
  take h := by
    rw [after_onStage]
    exact hact h.stage.calls_takeCommands (.idle (by simp [Call.isIdle]) rfl rfl rfl id)
  move h f _ := hact (List.append_nil _).symm (.idle (by simp) rfl rfl rfl id)
  reload h files _ := by
    obtain ⟨added, hcalls, ha⟩ := (quiet_reload files h).2.act
    exact hact hcalls ha
  frameRate h rate := by
    obtain ⟨added, hcalls, ha⟩ := (quiet_setFrameRate rate h).2.act
    exact hact hcalls ha
  pause h := by
    obtain ⟨added, hcalls, ha⟩ := act_togglePause h
    exact hact hcalls ha
  help h := hact (List.append_nil _).symm (.idle (by simp) rfl rfl rfl id)
  info h := hact (List.append_nil _).symm (.idle (by simp) rfl rfl rfl id)
  quit h := hact (List.append_nil _).symm (.idle (by simp) rfl rfl rfl fun _ ↦ rfl)
  overlay h _ := hact (h.stage.calls_setOverlay _) (.idle (by simp [Call.isIdle]) rfl rfl rfl id)
  redraw h _ _ := by
    rw [after_onStage]
    exact hact h.stage.calls_redraw (.redraw _ rfl rfl rfl)
  frame h hquit hpaused := by
    obtain ⟨added, hcalls, ha⟩ := act_runFrame hquit hpaused
    exact hact hcalls ha
  count h _ := hact (List.append_nil _).symm (.idle (by simp) rfl rfl rfl id)
  stop h hquit := by
    rw [after_onStage]
    exact hact h.stage.calls_stopSound (.stop _ rfl rfl hquit rfl)

theorem act_start {config : Config} {console : C} {m : Moment} {h : Host (Traced C)}
    (hs : start config (⟨console, #[]⟩ : Traced C) m = .ok h) :
    ∃ said lines, said.isNews = true ∧ h.stage.calls = [.report said, .overlay lines] ∧
      Act (initial config ⟨console, #[]⟩ m) h [.report said, .overlay lines] := by
  obtain ⟨h₀, h₁, hinitial, rfl, hcases⟩ := start_cases hs
  have hsaid : ∃ said : Message, said.isNews = true ∧ h₁.stage = h₀.stage.report said ∧
      h₁.desk.paused = h₀.desk.paused ∧ h₁.desk.quit = h₀.desk.quit := by
    rcases hcases with rfl | ⟨path, rom, memory, -, -, rfl⟩ | ⟨path, e, rfl⟩ <;>
      exact ⟨_, rfl, rfl, rfl, rfl⟩
  obtain ⟨said, hnews, hstage, hpaused, hquit⟩ := hsaid
  rw [← hinitial]
  refine ⟨said, h₁.desk.overlay, hnews, ?_, .idle ?_ ?_ ?_ hpaused hquit.trans⟩
  · show (h₁.stage.setOverlay h₁.desk.overlay).calls = _
    rw [Stage.calls_setOverlay, hstage, Stage.calls_report, hinitial]
    rfl
  · simp [Call.isIdle, hnews]
  · show h₁.stage.soundOk = _
    rw [hstage]
    rfl
  · show h₁.stage.lastVideo = _
    rw [hstage]
    rfl

/-- What every act keeps holds of a host that has started, whatever requests it has served. -/
theorem holds_of_acts {I : Host (Traced C) → Prop}
    (hact : ∀ {h h' added}, h'.stage.calls = h.stage.calls ++ added → Act h h' added →
      I h → I h') {config : Config} {console : C} {m : Moment} {h : Host (Traced C)}
    (hi : I (initial config ⟨console, #[]⟩ m))
    (hs : start config (⟨console, #[]⟩ : Traced C) m = .ok h) (requests : List Request) :
    I (afterAll requests h) := by
  obtain ⟨said, lines, -, hcalls, ha⟩ := act_start hs
  refine afterAll_of_law (law_of_acts hact) requests (fun _ _ _ _ ↦ trivial) ?_
  exact hact hcalls ha hi

end Host

end CopyJump
