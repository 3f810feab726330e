import CopyJump.Proofs.SoundTrouble
import CopyJump.Proofs.TickCalls

namespace CopyJump

namespace Call

def toned (on : Bool) : Call → Bool
  | .play .. => true
  | .stop _ => false
  | _ => on

/-- Whether a frame was run since the last pause, after a call. -/
def framed (ran : Bool) : Call → Bool
  | .poll (.ok _) => true
  | .report .paused => false
  | _ => ran

theorem toned_of_isIdle {c : Call} (hc : c.isIdle = true) (on : Bool) :
    c.toned on = on ∧ c.framed on = on := by
  cases c with
  | report m => cases m <;> first | exact ⟨rfl, rfl⟩ | cases hc
  | poll result => cases result <;> first | exact ⟨rfl, rfl⟩ | cases hc
  | _ => first | exact ⟨rfl, rfl⟩ | cases hc

theorem toned_of_not_isSpeaker {c : Call} (hc : c.isSpeaker = false) (on : Bool) :
    c.toned on = on := by
  cases c <;> first | rfl | cases hc

theorem isStop_of_error {c : Call} {e : Error} (he : c.error? = some e)
    (hnone : c.isFailedStop = false) : c.isStop = false := by
  cases c with
  | stop result =>
    cases result with
    | ok _ => cases he
    | error reason => cases hnone
  | _ => rfl

end Call

def sounding (calls : List Call) : Bool := calls.foldl Call.toned false

def ranSincePause (calls : List Call) : Bool := calls.foldl Call.framed false

theorem sounding_concat_stop (calls : List Call) (result : Except String Unit) :
    sounding (calls ++ [.stop result]) = false := by
  rw [sounding, List.foldl_concat]
  rfl

theorem sounding_append_of_idle (calls : List Call) {added : List Call}
    (hadded : ∀ c ∈ added, c.isIdle = true) :
    sounding (calls ++ added) = sounding calls ∧
      ranSincePause (calls ++ added) = ranSincePause calls := by
  rw [sounding, ranSincePause, List.foldl_append, List.foldl_append]
  exact ⟨foldl_eq_self (fun c hc on ↦ (Call.toned_of_isIdle (hadded c hc) on).1) _,
    foldl_eq_self (fun c hc on ↦ (Call.toned_of_isIdle (hadded c hc) on).2) _⟩

theorem sounding_eq_true_iff (calls : List Call) :
    sounding calls = true ↔ ∃ before frame result after,
      calls = before ++ .play frame result :: after ∧ ∀ c ∈ after, c.isSpeaker = false := by
  constructor
  · intro hon
    induction calls using List.reverseRecOn with
    | nil => cases hon
    | append_singleton calls c ih =>
      rw [sounding, List.foldl_concat] at hon
      cases hc : c.isSpeaker with
      | true =>
        cases c with
        | play frame result => exact ⟨calls, frame, result, [], rfl, by simp⟩
        | stop => cases hon
        | _ => cases hc
      | false =>
        rw [Call.toned_of_not_isSpeaker hc] at hon
        obtain ⟨before, frame, result, after, rfl, hafter⟩ := ih hon
        refine ⟨before, frame, result, after ++ [c], by simp, ?_⟩
        intro d hd
        rcases List.mem_append.mp hd with hd | hd
        · exact hafter d hd
        · rw [List.mem_singleton.mp hd, hc]
  · rintro ⟨before, frame, result, after, rfl, hafter⟩
    rw [sounding, List.foldl_append, List.foldl_cons]
    exact foldl_eq_self (fun c hc on ↦ Call.toned_of_not_isSpeaker (hafter c hc) on) _

namespace Host

variable {C : Type}

/-- Until the speaker fails or the loop ends there is a tone exactly if a frame was run since the
last pause. -/
theorem sounding_act {h h' : Host (Traced C)} {added : List Call}
    (hcalls : h'.stage.calls = h.stage.calls ++ added) (ha : Act h h' added)
    (hi : h.stage.soundOk = true → h.desk.quit = false →
      sounding h.stage.calls = ranSincePause h.stage.calls) :
    h'.stage.soundOk = true → h'.desk.quit = false →
      sounding h'.stage.calls = ranSincePause h'.stage.calls := by
  intro hok hquit'
  rw [hcalls]
  cases ha with
  | idle hadded hsound hvideo hpaused hquit =>
    have hnone : h.desk.quit = false :=
      Bool.eq_false_iff.mpr fun hq ↦ Bool.eq_false_iff.mp hquit' (hquit hq)
    obtain ⟨htone, hran⟩ := sounding_append_of_idle h.stage.calls hadded
    rw [htone, hran]
    exact hi (hsound ▸ hok) hnone
  | resume hsound hvideo hpaused hquit =>
    rw [sounding, ranSincePause, List.foldl_concat, List.foldl_concat]
    exact hi (hsound ▸ hok) (hquit ▸ hquit')
  | pause =>
    rw [sounding, ranSincePause, List.foldl_append, List.foldl_append]
    rfl
  | redraw result hsound hvideo hdesk =>
    rw [sounding, ranSincePause, List.foldl_concat, List.foldl_concat]
    exact hi (hsound ▸ hok) (hdesk ▸ hquit')
  | frame keys frames result hsound =>
    -- A speaker that is in use after the frame was in use before, and the frame was played.
    generalize h.stage.soundOk = ok at hsound
    rw [hok] at hsound
    cases hsound with
    | played =>
      rw [sounding, ranSincePause, List.foldl_append, List.foldl_append]
      rfl
  | stop result hsound hvideo hquit hdesk =>
    rw [hdesk, hquit] at hquit'
    cases hquit'

/-- The calls of a loop with what it ends with, given whether the host was told to quit by then. -/
inductive LoopCalls (quit : Bool) : List Call → Except Error Bool → Prop
  | told {calls : List Call} (hquit : quit = true) (hcalls : Paired calls) :
      LoopCalls quit (calls ++ [.stop (.ok ())]) (.ok true)
  | untold {calls : List Call} (hquit : quit = true) (hcalls : Paired calls) (reason : String) :
      LoopCalls quit (calls ++ [.stop (.error reason)]) (.error (.sound reason))
  | waiting {calls : List Call} (hquit : quit = false) (hcalls : Paired calls) :
      LoopCalls quit calls (.ok false)
  | failed {calls : List Call} {call : Call} {e : Error} (hcalls : Paired calls)
      (hlast : (calls.filter Call.isDevice).getLast? = some call) (he : call.error? = some e)
      (hquit : quit = true → call.isStop = true) : LoopCalls quit calls (.error e)

theorem LoopCalls.prepend {quit : Bool} {calls added : List Call} {result : Except Error Bool}
    (hcalls : Paired calls) (hl : LoopCalls quit added result) :
    LoopCalls quit (calls ++ added) result := by
  cases hl with
  | told hquit hadded =>
    rw [← List.append_assoc]
    exact .told hquit (hcalls.append hadded)
  | untold hquit hadded reason =>
    rw [← List.append_assoc]
    exact .untold hquit (hcalls.append hadded) reason
  | waiting hquit hadded => exact .waiting hquit (hcalls.append hadded)
  | failed hadded hlast he hquit =>
    refine .failed (hcalls.append hadded) ?_ he hquit
    rw [List.filter_append, List.getLast?_append, hlast]
    rfl

theorem PictureCalls.last_of_error {mute : Bool} {now : Time} {h h' : Host C} {shown : List Call}
    {fault : Option Error} (hp : PictureCalls mute now h h' shown fault)
    (hfault : fault.isSome = true) :
    h'.desk.quit = false ∧ ∃ call, shown.getLast? = some call ∧ call.error? = fault := by
  cases hp with
  | quit => cases hfault
  | paused hquit hpaused result hmachine hdesk => exact ⟨hdesk ▸ hquit, _, rfl, rfl⟩
  | keyless hquit hpaused fault hmachine hdesk => exact ⟨hdesk ▸ hquit, _, rfl, rfl⟩
  | ran hquit hpaused keys frames sound result hframe hsound hdesk =>
    refine ⟨?_, .draw frames.2 result, ?_, rfl⟩
    · rw [hdesk]
      cases result <;> exact hquit
    · rw [← List.cons_append, ← List.cons_append, List.getLast?_concat]

variable [Console C]

theorem TickCalls.last_of_error {mute : Bool} {m : Moment} {h h' : Host C} {calls : List Call}
    {fault : Option Error} (ht : TickCalls mute m h h' calls fault) (hfault : fault.isSome = true)
    (hquit : h.desk.quit = false) :
    ∃ call, calls.getLast? = some call ∧ call.error? = fault ∧
      (h'.desk.quit = true → call.isStop = true) := by
  cases ht with
  | untaken fault hmachine hdesk =>
    refine ⟨_, rfl, rfl, ?_⟩
    rw [hdesk, hquit]
    rintro ⟨⟩
  | stuck commands stops hstops reason =>
    refine ⟨.stop (.error reason), ?_, rfl, fun _ ↦ rfl⟩
    rw [← List.cons_append, List.getLast?_concat]
  | through commands _ _ _ _ hshown =>
    obtain ⟨hquit', call, hlast, he⟩ := hshown.last_of_error hfault
    refine ⟨call, ?_, he, ?_⟩
    · rw [← List.cons_append, List.getLast?_append, hlast]
      rfl
    · rw [hquit']
      rintro ⟨⟩

theorem closing_of_quit {h : Host C} (hquit : h.desk.quit = true) :
    closing h = (onStage Stage.stopSound >>= fun _ ↦ pure true : HostM C Bool) h := by
  rw [closing, bind_eq_of_ok (getDesk_apply h), if_pos hquit]

theorem closing_of_not_quit {h : Host C} (hquit : h.desk.quit = false) :
    closing h = .ok false h := by
  rw [closing, bind_eq_of_ok (getDesk_apply h), if_neg (by rw [hquit]; exact Bool.false_ne_true)]
  rfl

theorem closing_calls {h : Host (Traced C)} (hquit : h.desk.quit = true) :
    ∃ added, (after closing h).stage.calls = h.stage.calls ++ added ∧
      (after closing h).desk.quit = true ∧ LoopCalls true added (outcome closing h) := by
  have hout := outcome_onStage Stage.stopSound h
  have hafter := after_onStage Stage.stopSound h
  have hcalls := h.stage.calls_stopSound
  rw [Stage.stopSound_fst] at hout
  rw [outcome, after, closing_of_quit hquit, ← outcome, ← after, outcome_bind, after_bind, hout,
    hafter]
  generalize (Console.stop h.stage.console.inner).1 = result at hcalls
  cases result with
  | ok _ => exact ⟨_, hcalls, hquit, .told rfl .nil⟩
  | error reason => exact ⟨_, hcalls, hquit, .untold rfl .nil reason⟩

theorem mainLoop_cons (m : Moment) (moments : List Moment) :
    mainLoop (C := C) (m :: moments) = closing >>= fun quit ↦
      if quit then pure true else tick m >>= fun _ ↦ mainLoop moments := rfl

theorem mainLoop_of_quit {h : Host (Traced C)} (hquit : h.desk.quit = true)
    (moments : List Moment) : mainLoop moments h = closing h := by
  cases moments with
  | nil => rfl
  | cons m moments =>
    obtain ⟨added, -, -, hl⟩ := closing_calls hquit
    rw [mainLoop_cons]
    cases hclosing : closing h with
    | error e h' => exact bind_eq_of_error hclosing _
    | ok told h' =>
      rw [outcome, hclosing] at hl
      cases hl with
      | told =>
        rw [bind_eq_of_ok hclosing]
        rfl
      | waiting hnone => cases hnone

theorem mainLoop_of_not_quit {h : Host C} (hquit : h.desk.quit = false) (m : Moment)
    (moments : List Moment) :
    mainLoop (m :: moments) h = (tick m >>= fun _ ↦ mainLoop moments) h := by
  rw [mainLoop_cons, bind_eq_of_ok (closing_of_not_quit hquit)]
  rfl

theorem mainLoop_of_error {h : Host C} {m : Moment} {e : Error} (hquit : h.desk.quit = false)
    (htick : outcome (tick m) h = .error e) (moments : List Moment) :
    outcome (mainLoop (m :: moments)) h = .error e ∧
      after (mainLoop (m :: moments)) h = after (tick m) h := by
  rw [outcome, after, mainLoop_of_not_quit hquit, ← outcome, ← after, outcome_bind, after_bind,
    htick]
  exact ⟨rfl, rfl⟩

theorem mainLoop_calls_of_quit {h : Host (Traced C)} (hquit : h.desk.quit = true)
    (moments : List Moment) :
    let h' := after (mainLoop moments) h
    ∃ added, h'.stage.calls = h.stage.calls ++ added ∧
      LoopCalls h'.desk.quit added (outcome (mainLoop moments) h) := by
  obtain ⟨added, hcalls, hquit', hl⟩ := closing_calls hquit
  rw [outcome, after, mainLoop_of_quit hquit, ← outcome, ← after]
  rw [← hquit'] at hl
  exact ⟨added, hcalls, hl⟩

theorem mainLoop_calls (moments : List Moment) (h : Host (Traced C)) :
    let h' := after (mainLoop moments) h
    ∃ added, h'.stage.calls = h.stage.calls ++ added ∧
      LoopCalls h'.desk.quit added (outcome (mainLoop moments) h) := by
  induction moments generalizing h with
  | nil =>
    cases hquit : h.desk.quit with
    | true => exact mainLoop_calls_of_quit hquit []
    | false =>
      have hloop : mainLoop [] h = .ok false h := closing_of_not_quit hquit
      rw [outcome, after, hloop]
      exact ⟨[], (List.append_nil _).symm, .waiting hquit .nil⟩
  | cons m moments ih =>
    cases hquit : h.desk.quit with
    | true => exact mainLoop_calls_of_quit hquit (m :: moments)
    | false =>
      obtain ⟨added, hcalls, hpaired, ht⟩ := tick_calls m h
      rw [outcome, after, mainLoop_of_not_quit hquit, ← outcome, ← after, outcome_bind, after_bind]
      rw [fault?] at ht
      cases hout : outcome (tick m) h with
      | error e =>
        rw [hout] at ht
        obtain ⟨call, hlast, he, hstop⟩ := ht.last_of_error rfl hquit
        exact ⟨added, hcalls, .failed hpaired hlast he hstop⟩
      | ok _ =>
        obtain ⟨added', hcalls', hl⟩ := ih (after (tick m) h)
        refine ⟨added ++ added', ?_, hl.prepend hpaired⟩
        dsimp only
        rw [hcalls', hcalls, List.append_assoc]

/-- Where the speaker does not fail, a loop that was told to quit leaves no tone. One that ends with
the error of a device leaves one exactly if a frame was run since the last pause. -/
theorem sounding_after_mainLoop {config : Config} {console : C} {m : Moment} {h : Host (Traced C)}
    (hs : start config (⟨console, #[]⟩ : Traced C) m = .ok h) (requests : List Request)
    (moments : List Moment)
    (hsound : ∀ c ∈ (after (mainLoop moments) (afterAll requests h)).stage.calls,
      c.isFailedPlay = false ∧ c.isFailedStop = false) :
    let h := afterAll requests h
    let h' := after (mainLoop moments) h
    match outcome (mainLoop moments) h with
    | .ok told => told = true → sounding h'.stage.calls = false
    | .error e => sounding h'.stage.calls = ranSincePause h'.stage.calls ∧
        ∃ call, (h'.stage.calls.filter Call.isDevice).getLast? = some call ∧
          call.error? = some e := by
  have hrun := speakerRun hs (requests ++ [.mainLoop moments])
  have htone := holds_of_acts sounding_act (fun _ _ ↦ rfl) hs (requests ++ [.mainLoop moments])
  rw [afterAll_concat] at hrun htone
  intro h h'
  have hh' : h' = after (serve (.mainLoop moments)) h := rfl
  rw [← hh'] at hrun htone
  have hsound : ∀ c ∈ h'.stage.calls, c.isFailedPlay = false ∧ c.isFailedStop = false := hsound
  have hok : h'.stage.soundOk = true := hrun.ok_of_no_failedPlay fun c hc ↦ (hsound c hc).1
  obtain ⟨added, hcalls, hl⟩ := mainLoop_calls moments h
  have hcalls : h'.stage.calls = h.stage.calls ++ added := hcalls
  generalize outcome (mainLoop moments) h = result at hl ⊢
  cases hl with
  | told hquit hpaired =>
    intro _
    rw [hcalls, ← List.append_assoc]
    exact sounding_concat_stop _ _
  | untold hquit hpaired reason =>
    have hnone := (hsound (.stop (.error reason)) (by simp [hcalls])).2
    cases hnone
  | waiting => rintro ⟨⟩
  | @failed _ call e hpaired hlast he hquit =>
    have hdevices : (h'.stage.calls.filter Call.isDevice).getLast? = some call := by
      rw [hcalls, List.filter_append, List.getLast?_append, hlast]
      rfl
    have hmem : call ∈ h'.stage.calls := (List.mem_filter.mp (List.mem_of_getLast? hdevices)).1
    have hnone : h'.desk.quit = false := by
      have hstop := Call.isStop_of_error he (hsound call hmem).2
      exact Bool.eq_false_iff.mpr fun hq ↦ Bool.eq_false_iff.mp hstop (hquit hq)
    exact ⟨htone hok hnone, call, hdevices, he⟩

theorem mainLoop_of_refused_draw :
    let m : Moment := ⟨0, [], []⟩
    let keypad : ScriptedKeypad := {}
    let speaker : ScriptedSpeaker := {}
    let screen : ScriptedScreen := { failDraw := [1] }
    let h := bare {} (⟨⟨keypad, speaker, screen, {}⟩, #[]⟩ : Traced (Devices _ _ _)) m
    outcome (mainLoop [m]) h = .error (.unavailable (.refused "screen refused")) ∧
      ∃ frames : AudioFrame × VideoFrame, (after (mainLoop [m]) h).stage.calls =
        [.report (.noRoms h.desk.romDir), .overlay h.desk.overlay, .take (.ok []),
          .overlay h.desk.overlay, .poll (.ok 0), .play frames.1 (.ok ()),
          .draw frames.2 (.error (.refused "screen refused"))] := by
  intro m keypad speaker screen h
  obtain ⟨hout, hstage, -, -⟩ := tick_of_no_commands h rfl rfl rfl rfl m
  obtain ⟨hout', hafter⟩ := mainLoop_of_error (h := h) rfl hout []
  rw [hout', hafter, hstage]
  exact ⟨rfl, Machine.frames (after (tick m) h).machine.memory, rfl⟩

/-- The tone of a frame that the screen refuses goes on after the loop has ended. -/
theorem refused_draw_leaves_tone :
    let m : Moment := ⟨0, [], []⟩
    let keypad : ScriptedKeypad := {}
    let speaker : ScriptedSpeaker := {}
    let screen : ScriptedScreen := { failDraw := [1] }
    let console : Traced (Devices _ _ _) := ⟨⟨keypad, speaker, screen, {}⟩, #[]⟩
    ∃ h, start {} console m = .ok h ∧
      outcome (mainLoop [m]) h = .error (.unavailable (.refused "screen refused")) ∧
      (∀ c ∈ (after (mainLoop [m]) h).stage.calls,
        c.isFailedPlay = false ∧ c.isFailedStop = false) ∧
      sounding (after (mainLoop [m]) h).stage.calls = true := by
  intro m keypad speaker screen console
  obtain ⟨hout, frames, hcalls⟩ := mainLoop_of_refused_draw
  refine ⟨_, start_eq_bare {} m (by decide +kernel) console, hout, ?_, ?_⟩
  · rw [hcalls]
    simp [Call.isFailedPlay, Call.isFailedStop]
  · rw [hcalls]
    rfl

theorem sounding_after_mainLoop_of_refused_draw :
    let m : Moment := ⟨0, [], []⟩
    let keypad : ScriptedKeypad := {}
    let speaker : ScriptedSpeaker := {}
    let screen : ScriptedScreen := { failDraw := [1] }
    let console : Traced (Devices _ _ _) := ⟨⟨keypad, speaker, screen, {}⟩, #[]⟩
    ∃ h, start {} console m = .ok h ∧
      (∀ c ∈ (after (mainLoop [m]) h).stage.calls,
        c.isFailedPlay = false ∧ c.isFailedStop = false) ∧
      ∃ call, ((after (mainLoop [m]) h).stage.calls.filter Call.isDevice).getLast? = some call ∧
        call.error? = some (.unavailable (.refused "screen refused")) := by
  intro m keypad speaker screen console
  obtain ⟨hout, frames, hcalls⟩ := mainLoop_of_refused_draw
  have hs := start_eq_bare {} m (by decide +kernel) console
  have hsound : ∀ c ∈ (after (mainLoop [m]) (bare {} console m)).stage.calls,
      c.isFailedPlay = false ∧ c.isFailedStop = false := by
    rw [hcalls]
    simp [Call.isFailedPlay, Call.isFailedStop]
  obtain ⟨h, hh⟩ : ∃ h, h = bare {} console m := ⟨_, rfl⟩
  rw [← hh] at hs hsound
  have hout : outcome (mainLoop [m]) h = _ := hh ▸ hout
  have hloop := sounding_after_mainLoop hs [] [m] hsound
  dsimp only [afterAll, List.foldl_nil] at hloop
  rw [hout] at hloop
  exact ⟨h, hs, hsound, hloop.2⟩

end Host

end CopyJump
