import CopyJump.Proofs.TickCalls

namespace CopyJump

/-- Whether the next frame drawn is a new one, and the last new one that was drawn, after a call. A
frame is new if the keys were polled for it. -/
def Call.presented (shown : Bool × Option VideoFrame) : Call → Bool × Option VideoFrame
  | .poll (.ok _) => (true, shown.2)
  | .draw frame (.ok _) => (false, if shown.1 then some frame else shown.2)
  | .draw _ (.error _) => (false, shown.2)
  | _ => shown

def lastPresented (calls : List Call) : Option VideoFrame :=
  (calls.foldl Call.presented (false, none)).2

def lastSpeaker (calls : List Call) : Option Call := (calls.filter Call.isSpeaker).getLast?

theorem lastSpeaker_append_of_none (calls : List Call) {added : List Call}
    (hadded : ∀ c ∈ added, c.isSpeaker = false) :
    lastSpeaker (calls ++ added) = lastSpeaker calls := by
  have hnone : added.filter Call.isSpeaker = [] :=
    List.filter_eq_nil_iff.mpr fun c hc ↦ Bool.eq_false_iff.mp (hadded c hc)
  rw [lastSpeaker, List.filter_append, hnone, List.append_nil]
  rfl

theorem lastSpeaker_append_stop (calls : List Call) (result : Except String Unit) :
    lastSpeaker (calls ++ [.stop result]) = some (.stop result) := by
  rw [lastSpeaker, List.filter_append]
  exact List.getLast?_concat ..

namespace Call

theorem isSpeaker_of_isIdle {c : Call} (hc : c.isIdle = true) : c.isSpeaker = false := by
  cases c <;> first | rfl | cases hc

theorem presented_of_isIdle {c : Call} (hc : c.isIdle = true) (shown : Bool × Option VideoFrame) :
    c.presented shown = shown := by
  cases c with
  | poll result => cases result <;> first | rfl | cases hc
  | _ => first | rfl | cases hc

end Call

namespace Host

variable {C : Type}

theorem silenced_act {h h' : Host (Traced C)} {added : List Call}
    (hcalls : h'.stage.calls = h.stage.calls ++ added) (ha : Act h h' added)
    (hi : h.desk.paused = true → ∃ result, lastSpeaker h.stage.calls = some (.stop result)) :
    h'.desk.paused = true → ∃ result, lastSpeaker h'.stage.calls = some (.stop result) := by
  intro hpaused'
  rw [hcalls]
  cases ha with
  | idle hadded hsound hvideo hpaused hquit =>
    rw [lastSpeaker_append_of_none _ fun c hc ↦ Call.isSpeaker_of_isIdle (hadded c hc)]
    exact hi (hpaused ▸ hpaused')
  | resume hsound hvideo hpaused hquit =>
    rw [hpaused] at hpaused'
    cases hpaused'
  | pause result hsound hvideo hquit =>
    have hstop := lastSpeaker_append_stop (h.stage.calls ++ [.report .paused]) result
    rw [List.append_assoc] at hstop
    exact ⟨result, hstop⟩
  | redraw result hsound hvideo hdesk =>
    rw [lastSpeaker_append_of_none _ (by simp [Call.isSpeaker])]
    exact hi (hdesk ▸ hpaused')
  | frame keys frames result hsound hvideo hpaused hquit hdesk =>
    rw [hdesk, hpaused] at hpaused'
    cases hpaused'
  | stop result hsound hvideo hquit hdesk => exact ⟨result, lastSpeaker_append_stop _ result⟩

theorem presented_of_sounds {frame : AudioFrame} {ok ok' : Bool} {sound : List Call}
    (hs : Sounds frame ok sound ok') (shown : Bool × Option VideoFrame) :
    sound.foldl Call.presented shown = shown := by
  cases hs <;> rfl

theorem presented_act {h h' : Host (Traced C)} {added : List Call}
    (hcalls : h'.stage.calls = h.stage.calls ++ added) (ha : Act h h' added)
    (hi : h.stage.calls.foldl Call.presented (false, none) = (false, h.stage.lastVideo)) :
    h'.stage.calls.foldl Call.presented (false, none) = (false, h'.stage.lastVideo) := by
  rw [hcalls, List.foldl_append, hi]
  cases ha with
  | idle hadded hsound hvideo =>
    rw [hvideo]
    exact foldl_eq_self (fun c hc ↦ Call.presented_of_isIdle (hadded c hc)) _
  | frame keys frames result hsound hvideo =>
    rw [List.foldl_cons, List.foldl_append, presented_of_sounds hsound, hvideo]
    cases result <;> rfl
  | redraw result hsound hvideo =>
    rw [hvideo]
    cases result <;> rfl
  | resume hsound hvideo | pause _ hsound hvideo | stop _ hsound hvideo =>
    rw [hvideo]
    rfl

/-- The calls of a tick of a paused host that brings no commands, and what it ends with. -/
inductive FrozenTick (lines : List String) (frame : VideoFrame) :
    List Call → Except Error Bool → Prop
  | untaken (fault : Fault) :
      FrozenTick lines frame [.take (.error fault)] (.error (.unavailable fault))
  | drawn : FrozenTick lines frame
      [.take (.ok []), .overlay lines, .draw frame (.ok ())] (.ok false)
  | refused (fault : Fault) : FrozenTick lines frame
      [.take (.ok []), .overlay lines, .draw frame (.error fault)] (.error (.unavailable fault))

variable [Console C]

def commandless : List Moment → Host C → Prop
  | [], _ => True
  | m :: moments, h =>
    (∀ commands, outcome (onStage Stage.takeCommands) h = .ok commands → commands = []) ∧
      commandless moments (after (tick m) h)

theorem outcome_serve_tick (m : Moment) (h : Host C) :
    outcome (serve (.tick m)) h = (outcome (tick m) h).map fun _ ↦ false := by
  rw [serve_tick, outcome_bind]
  cases outcome (tick m) h <;> rfl

theorem tick_frozen {h : Host (Traced C)} (hquit : h.desk.quit = false)
    (hpaused : h.desk.paused = true)
    (hnone : ∀ commands, outcome (onStage Stage.takeCommands) h = .ok commands → commands = [])
    (m : Moment) :
    let h' := after (tick m) h
    h'.machine = h.machine ∧ h'.desk = h.desk ∧ h'.stage.lastVideo = h.stage.lastVideo ∧
      ∃ block, h'.stage.calls = h.stage.calls ++ block ∧
        FrozenTick h.desk.overlay (h.stage.lastVideo.getD .blank) block
          (outcome (serve (.tick m)) h) := by
  obtain ⟨result, hout, htaken, hmachine, hdesk, -, hvideo⟩ := h.takeCommands_calls
  rw [outcome_serve_tick]
  cases result with
  | error fault =>
    have htick : outcome (tick m) h = .error (.unavailable fault) := by
      rw [tick_eq, outcome_bind, hout]
      rfl
    have hafter : after (tick m) h = after (onStage Stage.takeCommands) h := by
      rw [tick_eq, after_bind, hout]
      rfl
    rw [htick, hafter]
    exact ⟨hmachine, hdesk, hvideo, _, htaken, .untaken fault⟩
  | ok commands =>
    cases hnone commands hout
    have htick := tick_eq_refresh (eq_ok_of_outcome hout) m
    generalize after (onStage Stage.takeCommands) h = h₁ at htaken hmachine hdesk hvideo htick
    rw [← hdesk] at hquit hpaused
    obtain ⟨drawn, hcalls, hshown, hmachine', hdesk', hvideo'⟩ :=
      refresh_calls_of_paused hquit hpaused m.now
    rw [outcome, ← htick, ← outcome] at hshown
    rw [after, ← htick, ← after] at hcalls hmachine' hdesk' hvideo'
    rw [htaken, List.append_assoc, hvideo, hdesk] at hcalls
    refine ⟨hmachine'.trans hmachine, hdesk'.trans hdesk, hvideo'.trans hvideo, _, hcalls, ?_⟩
    rw [hshown]
    cases drawn with
    | ok _ => exact .drawn
    | error fault => exact .refused fault

theorem ticks_frozen (moments : List Moment) {h : Host (Traced C)} (hquit : h.desk.quit = false)
    (hpaused : h.desk.paused = true) (hnone : commandless moments h) :
    let h' := afterAll (moments.map .tick) h
    h'.machine = h.machine ∧ h'.desk = h.desk ∧
      ∃ blocks, h'.stage.calls = h.stage.calls ++ blocks.flatten ∧
        List.Forall₂ (FrozenTick h.desk.overlay (h.stage.lastVideo.getD .blank)) blocks
          (outcomes (moments.map .tick) h) := by
  induction moments generalizing h with
  | nil => exact ⟨rfl, rfl, [], (List.append_nil _).symm, .nil⟩
  | cons m moments ih =>
    -- The first tick leaves the desk and the frame to draw as they are for the others.
    obtain ⟨hfirst, hrest⟩ := hnone
    obtain ⟨hmachine, hdesk, hvideo, block, hcalls, hblock⟩ :=
      tick_frozen hquit hpaused hfirst m
    obtain ⟨hmachine', hdesk', blocks, hcalls', hblocks⟩ :=
      ih (by rwa [hdesk]) (by rwa [hdesk]) hrest
    rw [List.map_cons, afterAll_cons, after_serve_tick, outcomes, after_serve_tick]
    refine ⟨hmachine'.trans hmachine, hdesk'.trans hdesk, block :: blocks, ?_, .cons hblock ?_⟩
    · rw [hcalls', hcalls, List.append_assoc, List.flatten_cons]
    · rwa [hdesk, hvideo] at hblocks

/-- Whatever a host that is paused has served, it called the speaker last to silence it; and as long
as its ticks bring no commands, they draw the last frame of the machine that was drawn, or a blank
one if there was none, and leave the machine and the desk as they were. -/
theorem paused_host_frozen {config : Config} {console : C} {m : Moment} {h : Host (Traced C)}
    (hs : start config (⟨console, #[]⟩ : Traced C) m = .ok h) (requests : List Request)
    (hpaused : (afterAll requests h).desk.paused = true) :
    let h := afterAll requests h
    (∃ result, lastSpeaker h.stage.calls = some (.stop result)) ∧
      ∀ moments, h.desk.quit = false → commandless moments h →
        let h' := afterAll (moments.map .tick) h
        h'.machine = h.machine ∧ h'.desk = h.desk ∧
          ∃ blocks, h'.stage.calls = h.stage.calls ++ blocks.flatten ∧
            List.Forall₂
              (FrozenTick h.desk.overlay ((lastPresented h.stage.calls).getD .blank)) blocks
              (outcomes (moments.map .tick) h) := by
  have hsilenced := holds_of_acts silenced_act (fun hp ↦ by cases hp) hs requests hpaused
  have hpresented := holds_of_acts presented_act rfl hs requests
  intro h
  refine ⟨hsilenced, ?_⟩
  intro moments hquit hnone
  have hlast : lastPresented h.stage.calls = h.stage.lastVideo := by
    rw [lastPresented, hpresented]
  rw [hlast]
  exact ticks_frozen moments hquit hpaused hnone

theorem paused_host_frozen_of_frame :
    let m : Moment := ⟨0, [], []⟩
    let keypad : ScriptedKeypad := {}
    let speaker : ScriptedSpeaker := {}
    let screen : ScriptedScreen := {}
    let console : Traced (Devices _ _ _) := ⟨⟨keypad, speaker, screen, {}⟩, #[]⟩
    let requests : List Request := [.tick m, .handle m.files .togglePause]
    ∃ h, start {} console m = .ok h ∧
      let h := afterAll requests h
      h.desk.paused = true ∧ h.desk.quit = false ∧ commandless [m] h ∧
        (∃ result, lastSpeaker h.stage.calls = some (.stop result)) ∧
        let h' := afterAll ([m].map .tick) h
        h'.machine = h.machine ∧ h'.desk = h.desk := by
  intro m keypad speaker screen console requests
  have hs := start_eq_bare {} m (by decide +kernel) console
  obtain ⟨h, hticked⟩ : ∃ h, after (tick m) (bare {} console m) = h := ⟨_, rfl⟩
  obtain ⟨-, hstage, hpaused, hquit⟩ :=
    tick_of_no_commands (bare {} console m) rfl rfl rfl rfl m
  rw [hticked] at hstage hpaused hquit
  have hh : afterAll requests (bare {} console m) =
      { h.toggled with stage := h.toggled.stage.stopSound.2 } := by
    rw [afterAll_cons, afterAll_cons, after_serve_tick, after_serve_handle, handle, hticked,
      after_togglePause_of_running hpaused, afterAll, List.foldl_nil]
  have hpaused' : (afterAll requests (bare {} console m)).desk.paused = true := by
    rw [hh, toggled, hpaused]
    rfl
  have hquit' : (afterAll requests (bare {} console m)).desk.quit = false := by
    rw [hh]
    exact hquit
  have hnone : commandless [m] (afterAll requests (bare {} console m)) := by
    refine ⟨?_, trivial⟩
    intro commands hcommands
    rw [hh, outcome_onStage, toggled, hstage] at hcommands
    cases hcommands
    rfl
  obtain ⟨hlast, hfrozen⟩ := paused_host_frozen hs requests hpaused'
  obtain ⟨hmachine, hdesk, -⟩ := hfrozen [m] hquit' hnone
  exact ⟨_, hs, hpaused', hquit', hnone, hlast, hmachine, hdesk⟩

end Host

end CopyJump
