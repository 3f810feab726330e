import CopyJump.Device.Scripted
import CopyJump.Proofs.CommandCalls

namespace CopyJump

open List (replicate)

namespace Call

def isDraw : Call → Bool
  | .draw .. => true
  | _ => false

def overlay? : Call → Option (List String)
  | .overlay lines => some lines
  | _ => none

end Call

def lastOverlay (calls : List Call) : Option (List String) :=
  (calls.filterMap Call.overlay?).getLast?

namespace Host

variable {C : Type}

theorem fault?_bind_modifyDesk (x : HostM C Unit) (f : Desk → Desk) (h : Host C) :
    fault? (x >>= fun _ ↦ modifyDesk f) h = fault? x h := by
  rw [fault?, fault?, outcome_bind]
  cases outcome x h <;> rfl

theorem after_bind_modifyDesk (x : HostM C Unit) (f : Desk → Desk) (h : Host C) :
    after (x >>= fun _ ↦ modifyDesk f) h =
      match fault? x h with
      | none => { after x h with desk := f (after x h).desk }
      | some _ => after x h := by
  rw [fault?, after_bind]
  cases outcome x h <;> rfl

variable [Console C]

/-- The calls on the devices once the commands are handled, with the error they end with. `mute`
tells that the speaker is no longer used. -/
inductive PictureCalls (mute : Bool) (now : Time) (h h' : Host C) :
    List Call → Option Error → Prop
  | quit (hquit : h.desk.quit = true) (hh : h' = h) : PictureCalls mute now h h' [] none
  | paused (hquit : h.desk.quit = false) (hpaused : h.desk.paused = true)
      (result : Except Fault Unit) (hmachine : h'.machine = h.machine) (hdesk : h'.desk = h.desk) :
      PictureCalls mute now h h'
        [.overlay h.desk.overlay, .draw (h.stage.lastVideo.getD .blank) result]
        (Call.draw (h.stage.lastVideo.getD .blank) result).error?
  | keyless (hquit : h.desk.quit = false) (hpaused : h.desk.paused = false) (fault : Fault)
      (hmachine : h'.machine = h.machine) (hdesk : h'.desk = h.desk) :
      PictureCalls mute now h h' [.overlay h.desk.overlay, .poll (.error fault)]
        (some (.unavailable fault))
  | ran (hquit : h.desk.quit = false) (hpaused : h.desk.paused = false) (keys : UInt16)
      (frames : AudioFrame × VideoFrame) (sound : List Call) (result : Except Fault Unit)
      (hframe : h.machine.frame keys = (.ok frames, h'.machine))
      (hsound : if mute then sound = [] else ∃ played, sound = [.play frames.1 played])
      (hdesk : h'.desk = match result with
        | .ok _ => { h.desk with counter := h.desk.counter.tick now }
        | .error _ => h.desk) :
      PictureCalls mute now h h'
        (.overlay h.desk.overlay :: .poll (.ok keys) :: (sound ++ [.draw frames.2 result]))
        (Call.draw frames.2 result).error?

theorem calls_overlaid (h : Host (Traced C)) :
    h.overlaid.stage.calls = h.stage.calls ++ [.overlay h.desk.overlay] :=
  h.stage.calls_setOverlay _

theorem refresh_calls_of_paused {h : Host (Traced C)} (hquit : h.desk.quit = false)
    (hpaused : h.desk.paused = true) (now : Time) :
    let h' := after (refresh now) h
    let frame := h.stage.lastVideo.getD .blank
    ∃ result, h'.stage.calls = h.stage.calls ++ [.overlay h.desk.overlay, .draw frame result] ∧
      outcome (refresh now) h = result.mapError .unavailable ∧
      h'.machine = h.machine ∧ h'.desk = h.desk ∧ h'.stage.lastVideo = h.stage.lastVideo := by
  intro h' frame
  have hrefresh := refresh_of_paused hquit hpaused now
  have hout := outcome_onStage Stage.redraw h.overlaid
  have hafter := after_onStage Stage.redraw h.overlaid
  have hcalls := h.overlaid.stage.calls_redraw
  rw [outcome, ← hrefresh, ← outcome] at hout
  rw [after, ← hrefresh, ← after] at hafter
  rw [calls_overlaid, List.append_assoc] at hcalls
  have hh' : h' = { h.overlaid with stage := h.overlaid.stage.redraw.2 } := hafter
  rw [hh', hout]
  exact ⟨_, hcalls, rfl, rfl, rfl, rfl⟩

theorem devices_sound {frame : AudioFrame} {ok ok' : Bool} {sound : List Call}
    (hs : Sounds frame ok sound ok') :
    (if !ok then sound.filter Call.isDevice = []
      else ∃ played, sound.filter Call.isDevice = [.play frame played]) ∧
      ∀ c ∈ sound, c.isStop = false ∧ c.isPause = false := by
  cases hs with
  | off => exact ⟨rfl, by simp⟩
  | played => exact ⟨⟨_, rfl⟩, by simp [Call.isStop, Call.isPause]⟩
  | broke reason => exact ⟨⟨_, rfl⟩, by simp [Call.isStop, Call.isPause]⟩

theorem refresh_spec_of_running {h : Host C} (hquit : h.desk.quit = false)
    (hpaused : h.desk.paused = false) (now : Time) :
    let h₁ := after runFrame h.overlaid
    let h' := after (refresh now) h
    fault? (refresh now) h = fault? runFrame h.overlaid ∧ h'.machine = h₁.machine ∧
      h'.stage = h₁.stage ∧
      h'.desk = match fault? runFrame h.overlaid with
        | none => { h₁.desk with counter := h₁.desk.counter.tick now }
        | some _ => h₁.desk := by
  have hrefresh := refresh_of_running hquit hpaused now
  have hafter := after_bind_modifyDesk runFrame
    (fun d ↦ { d with counter := d.counter.tick now }) h.overlaid
  rw [after, ← hrefresh, ← after] at hafter
  intro h₁ h'
  have hh' : h' = _ := hafter
  rw [fault?, outcome, hrefresh, ← outcome, ← fault?, fault?_bind_modifyDesk, hh']
  cases fault? runFrame h.overlaid <;> exact ⟨rfl, rfl, rfl, rfl⟩

theorem refresh_calls_of_running {h : Host (Traced C)} (hquit : h.desk.quit = false)
    (hpaused : h.desk.paused = false) (now : Time) :
    let h' := after (refresh now) h
    ∃ shown, h'.stage.calls = h.stage.calls ++ shown ∧
      (∀ c ∈ shown, c.isStop = false ∧ c.isPause = false) ∧
      PictureCalls (!h.stage.soundOk) now h h' (shown.filter Call.isDevice)
        (fault? (refresh now) h) := by
  intro h'
  obtain ⟨hfault, hmachine', hstage', hdesk'⟩ := refresh_spec_of_running hquit hpaused now
  have hmachine' : h'.machine = _ := hmachine'
  have hdesk' : h'.desk = _ := hdesk'
  rw [hfault, hstage']
  rcases h.overlaid.runFrame_calls with ⟨fault, hcalls, hout, hmachine, hdesk, -, -⟩ |
    ⟨keys, frames, sound, result, hcalls, hout, hframe, hdesk, hsound, -⟩ <;>
    rw [hout] at hdesk' ⊢ <;> rw [calls_overlaid, List.append_assoc] at hcalls
  · exact ⟨_, hcalls, by simp [Call.isStop, Call.isPause],
      .keyless hquit hpaused fault (hmachine'.trans hmachine) (hdesk'.trans hdesk)⟩
  · obtain ⟨hplayed, hnone⟩ := devices_sound hsound
    rw [← hmachine'] at hframe
    refine ⟨_, hcalls, ?_, ?_⟩
    · intro c hc
      simp only [List.singleton_append, List.mem_cons, List.mem_append, List.not_mem_nil,
        or_false] at hc
      rcases hc with rfl | rfl | hc | rfl
      · exact ⟨rfl, rfl⟩
      · exact ⟨rfl, rfl⟩
      · exact hnone c hc
      · exact ⟨rfl, rfl⟩
    · show PictureCalls _ now h h'
        (.overlay _ :: .poll (.ok keys) :: (sound ++ [Call.draw frames.2 result]).filter _) _
      rw [List.filter_append]
      refine .ran hquit hpaused keys frames _ result hframe hplayed ?_
      rw [hdesk', hdesk]
      cases result <;> rfl

theorem refresh_calls (now : Time) (h : Host (Traced C)) :
    let h' := after (refresh now) h
    ∃ shown, h'.stage.calls = h.stage.calls ++ shown ∧
      (∀ c ∈ shown, c.isStop = false ∧ c.isPause = false) ∧
      PictureCalls (!h.stage.soundOk) now h h' (shown.filter Call.isDevice)
        (fault? (refresh now) h) := by
  intro h'
  cases hquit : h.desk.quit with
  | true =>
    have hh' : h' = h := by
      show after (refresh now) h = h
      rw [after, refresh_of_quit hquit now]
    rw [hh', fault?, outcome, refresh_of_quit hquit now]
    exact ⟨[], (List.append_nil _).symm, by simp, .quit hquit rfl⟩
  | false =>
    cases hpaused : h.desk.paused with
    | true =>
      obtain ⟨result, hcalls, hout, hmachine, hdesk, -⟩ :=
        refresh_calls_of_paused hquit hpaused now
      have hfault : fault? (refresh now) h =
          (Call.draw (h.stage.lastVideo.getD .blank) result).error? := by
        rw [fault?, hout]
        cases result <;> rfl
      rw [hfault]
      exact ⟨_, hcalls, by simp [Call.isStop, Call.isPause],
        .paused hquit hpaused result hmachine hdesk⟩
    | false => exact refresh_calls_of_running hquit hpaused now

def handled (m : Moment) (commands : List HostCommand) (h : Host C) : Host C :=
  after (handleAll m.files commands) (after (onStage Stage.takeCommands) h)

/-- The calls of a tick on the devices, with the error it ends with. -/
inductive TickCalls (mute : Bool) (m : Moment) (h h' : Host C) : List Call → Option Error → Prop
  | untaken (fault : Fault) (hmachine : h'.machine = h.machine) (hdesk : h'.desk = h.desk) :
      TickCalls mute m h h' [.take (.error fault)] (some (.unavailable fault))
  | stuck (commands : List HostCommand) (stops : Nat)
      (hstops : stops < pauses h.desk.paused commands) (reason : String)
      (hh : h' = handled m commands h) (hcounter : h'.desk.counter = h.desk.counter)
      (hframes : h'.machine.framesRun = h.machine.framesRun) :
      TickCalls mute m h h'
        (.take (.ok commands) :: (replicate stops (.stop (.ok ())) ++ [.stop (.error reason)]))
        (some (.sound reason))
  | through (commands : List HostCommand)
      (hpaused : (handled m commands h).desk.paused = pausedAfter h.desk.paused commands)
      (hquit : (handled m commands h).desk.quit = (h.desk.quit || commands.contains .quit))
      (hcounter : (handled m commands h).desk.counter = h.desk.counter)
      (hframes : (handled m commands h).machine.framesRun = h.machine.framesRun)
      {shown : List Call} {fault : Option Error}
      (hshown : PictureCalls mute m.now (handled m commands h) h' shown fault) :
      TickCalls mute m h h'
        (.take (.ok commands) ::
          (replicate (pauses h.desk.paused commands) (.stop (.ok ())) ++ shown))
        fault

theorem takeCommands_calls (h : Host (Traced C)) :
    let h' := after (onStage Stage.takeCommands) h
    ∃ result, outcome (onStage Stage.takeCommands) h = result.mapError .unavailable ∧
      h'.stage.calls = h.stage.calls ++ [.take result] ∧ h'.machine = h.machine ∧
      h'.desk = h.desk ∧ h'.stage.soundOk = h.stage.soundOk ∧
      h'.stage.lastVideo = h.stage.lastVideo := by
  intro h'
  have hh' : h' = { h with stage := h.stage.takeCommands.2 } := after_onStage _ h
  rw [hh']
  exact ⟨_, outcome_onStage _ h, h.stage.calls_takeCommands, rfl, rfl, rfl, rfl⟩

theorem handled_calls (m : Moment) {h : Host (Traced C)} {commands : List HostCommand}
    (htake : outcome (onStage Stage.takeCommands) h = .ok commands) :
    let h' := handled m commands h
    Kept h h' ∧ ∃ said, h'.stage.calls = h.stage.calls ++ .take (.ok commands) :: said ∧
      Paired said ∧ BatchCalls commands h h' (said.filter Call.isDevice)
        (fault? (handleAll m.files commands) (after (onStage Stage.takeCommands) h)) := by
  obtain ⟨result, hout, htaken, hmachine, hdesk, hsound, hvideo⟩ := h.takeCommands_calls
  have hresult : result = .ok commands := by
    rw [htake] at hout
    cases result <;> cases hout
    rfl
  obtain ⟨hkept, said, hcalls, hpaired, hbatch⟩ :=
    handleAll_batch m.files commands (after (onStage Stage.takeCommands) h)
  have htook : Kept h (after (onStage Stage.takeCommands) h) :=
    ⟨hsound, hvideo, congrArg Desk.counter hdesk, congrArg Machine.framesRun hmachine⟩
  refine ⟨htook.trans hkept, said, ?_, hpaired, hbatch.of_desk_eq hdesk⟩
  rw [handled, hcalls, htaken, hresult, List.append_assoc]
  rfl

theorem tick_calls (m : Moment) (h : Host (Traced C)) :
    let h' := after (tick m) h
    ∃ added, h'.stage.calls = h.stage.calls ++ added ∧ Paired added ∧
      TickCalls (!h.stage.soundOk) m h h' (added.filter Call.isDevice) (fault? (tick m) h) := by
  intro h'
  have hh' : h' = after (tick m) h := rfl
  rw [hh', fault?, tick_eq, outcome_bind, after_bind]
  cases hout : outcome (onStage Stage.takeCommands) h with
  | error e =>
    obtain ⟨result, hresult, htaken, hmachine, hdesk, -, -⟩ := h.takeCommands_calls
    rw [hout] at hresult
    cases result with
    | ok commands => cases hresult
    | error fault =>
      cases hresult
      exact ⟨_, htaken, .of_other (by simp [Call.isStop, Call.isPause]),
        .untaken fault hmachine hdesk⟩
  | ok commands =>
    obtain ⟨hkept, said, hsaid, hpaired, hbatch⟩ := handled_calls m hout
    dsimp only
    rw [outcome_bind, after_bind]
    rw [fault?] at hbatch
    generalize outcome (handleAll m.files commands) (after (onStage Stage.takeCommands) h) = stopped
      at hbatch
    cases stopped with
    | error e =>
      -- The speaker failed at one of the pauses, and the rest of the tick is left out.
      refine ⟨_, hsaid, .other rfl rfl hpaired, ?_⟩
      show TickCalls _ m h (handled m commands h)
        (.take (.ok commands) :: said.filter Call.isDevice) (some e)
      generalize said.filter Call.isDevice = devices at hbatch
      cases hbatch with
      | stuck stops hstops reason =>
        exact .stuck commands stops hstops reason rfl hkept.counter hkept.framesRun
    | ok _ =>
      obtain ⟨shown, hmore, hnone, hpicture⟩ := refresh_calls m.now (handled m commands h)
      rw [hsaid, List.append_assoc] at hmore
      refine ⟨_, hmore, (Paired.other rfl rfl hpaired).append (.of_other hnone), ?_⟩
      show TickCalls _ m h _
        (.take (.ok commands) :: (said ++ shown).filter Call.isDevice) _
      rw [List.filter_append]
      generalize said.filter Call.isDevice = devices at hbatch
      cases hbatch with
      | done hpaused hquit =>
        rw [hkept.soundOk] at hpicture
        exact .through commands hpaused hquit hkept.counter hkept.framesRun hpicture

def readied (h : Host C) : Stage C := (h.stage.takeCommands.2.setOverlay h.desk.overlay).poll.2

theorem tick_of_no_commands (h : Host C) {keys : UInt16}
    (hquit : h.desk.quit = false) (hpaused : h.desk.paused = false)
    (htake : h.stage.takeCommands.1 = .ok [])
    (hpoll : (h.stage.takeCommands.2.setOverlay h.desk.overlay).poll.1 = .ok keys) (m : Moment) :
    let h' := after (tick m) h
    let shown := h.readied.present (Machine.frames h'.machine.memory)
    outcome (tick m) h = shown.1 ∧ h'.stage = shown.2 ∧ h'.desk.paused = false ∧
      h'.desk.quit = false := by
  have htick := tick_eq_refresh (eq_ok_of_outcome ((outcome_onStage _ h).trans htake)) m
  rw [after_onStage] at htick
  obtain ⟨h₁, hh₁⟩ : ∃ h₁ : Host C, h₁ = { h with stage := h.stage.takeCommands.2 } := ⟨_, rfl⟩
  rw [← hh₁] at htick
  have hquit' : h₁.desk.quit = false := by
    rw [hh₁]
    exact hquit
  have hpaused' : h₁.desk.paused = false := by
    rw [hh₁]
    exact hpaused
  have hpoll' : h₁.overlaid.stage.poll = (.ok keys, h.readied) := by
    rw [hh₁]
    exact Prod.ext hpoll rfl
  rw [refresh_of_running hquit' hpaused'] at htick
  intro h'
  have hh' : h' = after (tick m) h := rfl
  rw [outcome, hh', after, htick, ← outcome, ← after, outcome_bind, after_bind]
  rcases runFrame_cases h₁.overlaid with
    ⟨e, stage, hp, -⟩ | ⟨keys', stage, memory, hp, -, hout, hafter⟩
  · cases hpoll'.symm.trans hp
  · cases hpoll'.symm.trans hp
    rw [hout, hafter]
    cases hshown : (h.readied.present (Machine.frames memory)).1 with
    | ok _ => exact ⟨hshown.symm, rfl, hpaused', hquit'⟩
    | error e => exact ⟨hshown.symm, rfl, hpaused', hquit'⟩

theorem eq_of_last_draw {calls before rest : List Call} {c : Call} {frame : VideoFrame}
    {result : Except Fault Unit} (hcalls : ∀ c ∈ calls, c.isDraw = false)
    (h : calls ++ [c] = before ++ .draw frame result :: rest) : before = calls := by
  rcases List.append_eq_append_iff.mp h with ⟨gap, hbefore, htail⟩ | ⟨gap, hbefore, htail⟩
  · cases gap with
    | nil => rw [hbefore, List.append_nil]
    | cons d gap => cases gap <;> cases htail
  · cases gap with
    | nil => rw [hbefore, List.append_nil]
    | cons d gap =>
      cases htail
      cases hcalls (.draw frame result) (by simp [hbefore])

theorem prelude_spec (commands : Except Fault (List HostCommand)) (stops : Nat)
    (lines : List String) {polled : List Call}
    (hpolled : ∀ c ∈ polled, c.isDraw = false ∧ c.overlay? = none) :
    let calls := .take commands :: (replicate stops (.stop (.ok ())) ++ .overlay lines :: polled)
    lastOverlay calls = some lines ∧ ∀ c ∈ calls, c.isDraw = false := by
  intro calls
  constructor
  · have hnone : polled.filterMap Call.overlay? = [] :=
      List.filterMap_eq_nil_iff.mpr fun c hc ↦ (hpolled c hc).2
    have hone : calls.filterMap Call.overlay? = [lines] := by
      rw [List.filterMap_cons_none rfl, List.filterMap_append,
        List.filterMap_replicate_of_none rfl, List.nil_append, List.filterMap_cons]
      simp only [Call.overlay?, hnone]
    rw [lastOverlay, hone]
    rfl
  · intro c hc
    simp only [calls, List.mem_cons, List.mem_append, List.mem_replicate] at hc
    rcases hc with rfl | ⟨-, rfl⟩ | rfl | hc
    · rfl
    · rfl
    · rfl
    · exact (hpolled c hc).1

/-- The overlay that a picture is drawn under is that of the desk as the tick leaves it, but for the
frame counter, which is stepped after the draw. -/
theorem TickCalls.overlay_of_draw {mute : Bool} {m : Moment} {h h' : Host C} {calls : List Call}
    {fault : Option Error} (ht : TickCalls mute m h h' calls fault) {before rest : List Call}
    {frame : VideoFrame} {result : Except Fault Unit}
    (hcalls : calls = before ++ .draw frame result :: rest) :
    lastOverlay before = some ({ h'.desk with counter := h.desk.counter } : Desk).overlay := by
  have hdraw : .draw frame result ∈ calls := by simp [hcalls]
  cases ht with
  | untaken => simp at hdraw
  | stuck => simp at hdraw
  | through commands hpaused hquit hcounter hframes hshown =>
    cases hshown with
    | quit => simp at hdraw
    | keyless => simp at hdraw
    | paused _ _ result' hmachine hdesk =>
      have hpolled : ∀ c ∈ ([] : List Call), c.isDraw = false ∧ c.overlay? = none := by simp
      obtain ⟨hlines, hnone⟩ := prelude_spec (.ok commands) (pauses h.desk.paused commands)
        (handled m commands h).desk.overlay hpolled
      have hlast := eq_of_last_draw hnone (by simpa using hcalls)
      rw [hlast, hlines, hdesk, ← hcounter]
    | ran _ _ keys frames sound result' _ hsound hdesk =>
      have hpolled : ∀ c ∈ Call.poll (.ok keys) :: sound, c.isDraw = false ∧ c.overlay? = none := by
        intro c hc
        cases mute with
        | true =>
          rw [if_pos rfl] at hsound
          rw [hsound] at hc
          rw [List.mem_singleton.mp hc]
          exact ⟨rfl, rfl⟩
        | false =>
          obtain ⟨played, rfl⟩ := hsound
          simp only [List.mem_cons, List.not_mem_nil, or_false] at hc
          rcases hc with rfl | rfl <;> exact ⟨rfl, rfl⟩
      obtain ⟨hlines, hnone⟩ := prelude_spec (.ok commands) (pauses h.desk.paused commands)
        (handled m commands h).desk.overlay hpolled
      have hlast := eq_of_last_draw hnone (by simpa using hcalls)
      have hsame : ({ h'.desk with counter := h.desk.counter } : Desk) =
          (handled m commands h).desk := by
        rw [hdesk, ← hcounter]
        cases result' <;> rfl
      rw [hlast, hlines, hsame]

/-- From every host that was started, whatever it has served, a tick makes the calls that it should
and ends with the error of the one that failed; and no picture is drawn under a stale overlay. -/
theorem tick_follows_protocol {config : Config} {console : C} {m₀ : Moment} {h : Host (Traced C)}
    (hs : start config (⟨console, #[]⟩ : Traced C) m₀ = .ok h) (requests : List Request)
    (m : Moment) :
    let h := afterAll requests h
    let h' := after (tick m) h
    ∃ added, h'.stage.calls = h.stage.calls ++ added ∧
      TickCalls (h.stage.calls.any Call.isFailedPlay) m h h' (added.filter Call.isDevice)
        (fault? (tick m) h) ∧
      ∀ before frame result rest,
        added.filter Call.isDevice = before ++ .draw frame result :: rest →
          lastOverlay before =
            some ({ h'.desk with counter := h.desk.counter } : Desk).overlay := by
  intro h h'
  obtain ⟨added, hcalls, -, ht⟩ := tick_calls m h
  rw [← (speakerRun hs requests).any_isFailedPlay] at ht
  exact ⟨added, hcalls, ht, fun _ _ _ _ ↦ ht.overlay_of_draw⟩

def bare (config : Config) (console : C) (m : Moment) : Host C :=
  overlaid { initial config console m with
    stage := (initial config console m).stage.report (.noRoms config.romDir) }

theorem start_eq_bare (config : Config) (m : Moment)
    (he : (library config m.files).isEmpty = true) (console : C) :
    start config console m = .ok (bare config console m) :=
  start_eq_empty he console

theorem tick_follows_protocol_of_paused :
    let m : Moment := ⟨0, [], []⟩
    let keypad : ScriptedKeypad := { batches := [some [.togglePause, .togglePause]] }
    let console : Devices ScriptedKeypad ScriptedSpeaker ScriptedScreen := ⟨keypad, {}, {}, {}⟩
    let requests : List Request := [.handle m.files .togglePause]
    ∃ h, start {} (⟨console, #[]⟩ : Traced (Devices _ _ _)) m = .ok h ∧
      let h := afterAll requests h
      let h' := after (tick m) h
      h.desk.paused = true ∧ ∃ added, h'.stage.calls = h.stage.calls ++ added ∧
        TickCalls (h.stage.calls.any Call.isFailedPlay) m h h' (added.filter Call.isDevice)
          (fault? (tick m) h) := by
  intro m keypad console requests
  have hs := start_eq_bare {} m (by decide +kernel) (⟨console, #[]⟩ : Traced (Devices _ _ _))
  obtain ⟨added, hcalls, ht, -⟩ := tick_follows_protocol hs requests m
  exact ⟨_, hs, rfl, added, hcalls, ht⟩

end Host

end CopyJump
