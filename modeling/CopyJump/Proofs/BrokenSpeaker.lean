import CopyJump.Proofs.LoopCalls

namespace CopyJump

namespace Paired

theorem of_append_cons {before rest : List Call} {c : Call} (h : Paired (before ++ c :: rest))
    (hstop : c.isStop = false) (hpause : c.isPause = false) : Paired rest := by
  generalize hcalls : before ++ c :: rest = calls at h
  -- By induction on the pairs: the call is neither half of one, so it stands between two of them.
  induction h generalizing before with
  | nil => simp at hcalls
  | other _ _ htail ih =>
    cases before with
    | nil =>
      cases hcalls
      exact htail
    | cons d before =>
      cases hcalls
      exact ih rfl
  | pause result htail ih =>
    cases before with
    | nil =>
      cases hcalls
      cases hpause
    | cons d before =>
      cases before with
      | nil =>
        cases hcalls
        cases hstop
      | cons d' before =>
        cases hcalls
        exact ih rfl

theorem no_stop_iff {calls : List Call} (h : Paired calls) :
    (∀ c ∈ calls, c.isStop = false) ↔ ∀ c ∈ calls, c.isPause = false := by
  induction h with
  | nil => simp
  | other hstop hpause _ ih => simp [hstop, hpause, ih]
  | pause result _ _ => simp [Call.isStop, Call.isPause]

end Paired

theorem Call.isSpeaker_eq_false_iff (c : Call) :
    c.isSpeaker = false ↔ c.isStop = false ∧ c.isPlay = false := by
  cases c <;> simp [isSpeaker, isStop, isPlay]

namespace Host

variable {C : Type}

theorem LoopCalls.paired {calls : List Call} {result : Except Error Bool}
    (hl : LoopCalls false calls result) : Paired calls := by
  cases hl with
  | told hquit => cases hquit
  | untold hquit => cases hquit
  | waiting _ hcalls => exact hcalls
  | failed hcalls => exact hcalls

theorem LoopCalls.last_of_quit {calls : List Call} {result : Except Error Bool}
    (hl : LoopCalls true calls result) :
    ∃ c, (calls.filter Call.isDevice).getLast? = some c ∧ c.isStop = true := by
  cases hl with
  | told _ hcalls =>
    refine ⟨.stop (.ok ()), ?_, rfl⟩
    rw [List.filter_append]
    exact List.getLast?_concat ..
  | untold _ hcalls reason =>
    refine ⟨.stop (.error reason), ?_, rfl⟩
    rw [List.filter_append]
    exact List.getLast?_concat ..
  | waiting hquit => cases hquit
  | failed hcalls hlast he hstop => exact ⟨_, hlast, hstop rfl⟩

theorem Act.no_play_of_quit {h h' : Host (Traced C)} {added : List Call} (ha : Act h h' added)
    (hquit : h.desk.quit = true) :
    h'.desk.quit = true ∧ ∀ c ∈ added, c.isPlay = false := by
  cases ha with
  | idle hadded _ _ _ hq =>
    exact ⟨hq hquit, fun c hc ↦ (Call.isTrouble_of_isIdle (hadded c hc)).2⟩
  | resume _ _ _ hq => exact ⟨hq.trans hquit, by simp [Call.isPlay]⟩
  | pause _ _ _ hq => exact ⟨hq.trans hquit, by simp [Call.isPlay]⟩
  | redraw _ _ _ hdesk => exact ⟨hdesk ▸ hquit, by simp [Call.isPlay]⟩
  | frame _ _ _ _ _ _ hq =>
    rw [hquit] at hq
    cases hq
  | stop _ _ _ _ hdesk => exact ⟨hdesk ▸ hquit, by simp [Call.isPlay]⟩

/-- Whether a loop among the requests was left because the host was told to quit. -/
def quitsLoop [Console C] : List Request → Host C → Prop
  | [], _ => False
  | r :: rs, h =>
    (∃ moments, r = .mainLoop moments ∧ (after (serve r) h).desk.quit = true) ∨
      quitsLoop rs (after (serve r) h)

variable [Console C]

theorem serve_paired (r : Request) (h : Host (Traced C))
    (hloop : ∀ moments, r = .mainLoop moments → (after (serve r) h).desk.quit = false) :
    ∃ added, (after (serve r) h).stage.calls = h.stage.calls ++ added ∧ Paired added := by
  cases r with
  | tick m =>
    obtain ⟨added, hcalls, hpaired, -⟩ := tick_calls m h
    rw [after_serve_tick]
    exact ⟨added, hcalls, hpaired⟩
  | handle files command =>
    obtain ⟨-, added, hcalls, hpaired, -⟩ := handle_batch files command h
    rw [after_serve_handle]
    exact ⟨added, hcalls, hpaired⟩
  | mainLoop moments =>
    have hquit := hloop moments rfl
    obtain ⟨added, hcalls, hl⟩ := mainLoop_calls moments h
    change (after (mainLoop moments) h).desk.quit = false at hquit
    rw [hquit] at hl
    exact ⟨added, hcalls, hl.paired⟩

theorem afterAll_paired (requests : List Request) {h : Host (Traced C)}
    (hloop : ¬quitsLoop requests h) :
    ∃ added, (afterAll requests h).stage.calls = h.stage.calls ++ added ∧ Paired added := by
  induction requests generalizing h with
  | nil => exact ⟨[], (List.append_nil _).symm, .nil⟩
  | cons r rs ih =>
    rw [quitsLoop, not_or] at hloop
    obtain ⟨added, hcalls, hpaired⟩ := serve_paired r h fun moments hr ↦
      Bool.eq_false_iff.mpr fun hquit ↦ hloop.1 ⟨moments, hr, hquit⟩
    obtain ⟨added', hcalls', hpaired'⟩ := ih hloop.2
    refine ⟨added ++ added', ?_, hpaired.append hpaired'⟩
    rw [← List.append_assoc, ← hcalls, ← hcalls']
    rfl

theorem no_play_of_quit (requests : List Request) {h : Host (Traced C)}
    (hquit : h.desk.quit = true) :
    ∃ added, (afterAll requests h).stage.calls = h.stage.calls ++ added ∧
      ∀ c ∈ added, c.isPlay = false := by
  -- That the host was told to quit is part of what the acts keep, for without it they may play.
  let I (h' : Host (Traced C)) := h'.desk.quit = true ∧
    ∃ added, h'.stage.calls = h.stage.calls ++ added ∧ ∀ c ∈ added, c.isPlay = false
  have hact {h₁ h₂ : Host (Traced C)} {more : List Call}
      (hcalls : h₂.stage.calls = h₁.stage.calls ++ more) (ha : Act h₁ h₂ more) (hi : I h₁) :
      I h₂ := by
    obtain ⟨hquit₁, added, hadded, hnone⟩ := hi
    obtain ⟨hquit₂, hmore⟩ := ha.no_play_of_quit hquit₁
    refine ⟨hquit₂, added ++ more, ?_, ?_⟩
    · rw [hcalls, hadded, List.append_assoc]
    · intro c hc
      rcases List.mem_append.mp hc with hc | hc
      · exact hnone c hc
      · exact hmore c hc
  have hi : I h := ⟨hquit, [], (List.append_nil _).symm, by simp⟩
  exact (afterAll_of_law (law_of_acts hact) requests (fun _ _ _ _ ↦ trivial) hi).2

theorem stop_of_quitsLoop (requests : List Request) {h : Host (Traced C)}
    (hloop : quitsLoop requests h) :
    ∃ calls added c, (afterAll requests h).stage.calls = calls ++ added ∧
      (calls.filter Call.isDevice).getLast? = some c ∧ c.isStop = true ∧
      ∀ c ∈ added, c.isPlay = false := by
  induction requests generalizing h with
  | nil => cases hloop
  | cons r rs ih =>
    rw [quitsLoop] at hloop
    rcases hloop with ⟨moments, rfl, hquit⟩ | hloop
    · obtain ⟨added, hcalls, hnone⟩ := no_play_of_quit rs hquit
      obtain ⟨block, hblock, hl⟩ := mainLoop_calls moments h
      change (after (mainLoop moments) h).desk.quit = true at hquit
      rw [hquit] at hl
      obtain ⟨c, hlast, hstop⟩ := hl.last_of_quit
      refine ⟨(after (mainLoop moments) h).stage.calls, added, c, hcalls, ?_, hstop, hnone⟩
      rw [hblock, List.filter_append, List.getLast?_append, hlast]
      rfl
    · exact ih hloop

theorem mem_stop_of_quitsLoop {requests : List Request} {h : Host (Traced C)}
    (hloop : quitsLoop requests h) {before rest : List Call} {frame : AudioFrame}
    {result : Except String Unit}
    (hcalls : (afterAll requests h).stage.calls = before ++ .play frame result :: rest) :
    ∃ c ∈ rest, c.isStop = true := by
  obtain ⟨calls, added, c, hsplit, hlast, hstop, hnone⟩ := stop_of_quitsLoop requests hloop
  have hplay (hmem : .play frame result ∈ added) : False := by
    cases hnone _ hmem
  rw [hsplit, List.append_eq_append_iff] at hcalls
  rcases hcalls with ⟨gap, hbefore, hadded⟩ | ⟨gap, hpre, htail⟩
  · exact (hplay (by simp [hadded])).elim
  · cases gap with
    | nil =>
      rw [List.nil_append] at htail
      exact (hplay (htail ▸ List.mem_cons_self)).elim
    | cons d gap =>
      cases htail
      -- The last call up to the end of the loop is a stop, so it is not the play but after it.
      rw [hpre, List.filter_append, List.getLast?_append, List.filter_cons_of_pos rfl] at hlast
      have hmem : c ∈ .play frame result :: gap.filter Call.isDevice := by
        refine List.mem_of_getLast? ?_
        rw [← hlast, List.getLast?_cons]
        rfl
      rcases List.mem_cons.mp hmem with rfl | hmem
      · cases hstop
      · exact ⟨c, List.mem_append_left _ (List.mem_filter.mp hmem).1, hstop⟩

/-- A play that fails is the only trouble with the speaker, is reported at once, and no play comes
after it. The speaker is left alone from then on if and only if the host is neither paused again
nor left by quitting. -/
theorem broken_speaker_left_alone_iff {config : Config} {console : C} {m : Moment}
    {h : Host (Traced C)} (hs : start config (⟨console, #[]⟩ : Traced C) m = .ok h)
    (requests : List Request) {before rest : List Call} {frame : AudioFrame} {reason : String}
    (hcalls : (afterAll requests h).stage.calls =
      before ++ .play frame (.error reason) :: rest) :
    ∃ later, rest = .report (.soundDisabled reason) :: later ∧
      (∀ c ∈ before, c.isTrouble = false) ∧
      (∀ c ∈ later, c.isTrouble = false ∧ c.isPlay = false) ∧
      ((∀ c ∈ later, c.isSpeaker = false) ↔
        (∀ c ∈ later, c.isPause = false) ∧ ¬quitsLoop requests h) := by
  have hrun := speakerRun hs requests
  rw [hcalls] at hrun
  obtain ⟨-, hbefore, later, rfl, hlater⟩ := hrun.eq_of_failedPlay
  refine ⟨later, rfl, hbefore, hlater, ?_⟩
  have hspeaker : (∀ c ∈ later, c.isSpeaker = false) ↔ ∀ c ∈ later, c.isStop = false := by
    refine forall₂_congr fun c hc ↦ ?_
    rw [Call.isSpeaker_eq_false_iff, and_iff_left (hlater c hc).2]
  rw [hspeaker]
  by_cases hloop : quitsLoop requests h
  · obtain ⟨c, hc, hstop⟩ := mem_stop_of_quitsLoop hloop hcalls
    rw [iff_false_right fun hquiet ↦ hquiet.2 hloop]
    intro hnone
    rcases List.mem_cons.mp hc with rfl | hc
    · cases hstop
    · exact Bool.false_ne_true ((hnone c hc).symm.trans hstop)
  · obtain ⟨said, lines, hnews, hstarted, -⟩ := act_start hs
    obtain ⟨added, hadded, hpaired⟩ := afterAll_paired requests hloop
    have hstart : Paired [.report said, .overlay lines] := by
      refine .other rfl ?_ (.other rfl rfl .nil)
      cases said <;> first | rfl | cases hnews
    have hall := hstart.append hpaired
    rw [← hstarted, ← hadded, hcalls] at hall
    -- Neither the play nor its warning is half of a pause, so what follows them is paired too.
    have hreported : Paired ([] ++ .report (.soundDisabled reason) :: later) :=
      hall.of_append_cons rfl rfl
    rw [and_iff_left hloop]
    exact (hreported.of_append_cons rfl rfl).no_stop_iff

/-- The calls of a host whose first play fails, and which is paused then. -/
theorem calls_of_refused_play :
    let m : Moment := ⟨0, [], []⟩
    let keypad : ScriptedKeypad := {}
    let speaker : ScriptedSpeaker := { failPlay := [1] }
    let screen : ScriptedScreen := {}
    let h := bare {} (⟨⟨keypad, speaker, screen, {}⟩, #[]⟩ : Traced (Devices _ _ _)) m
    ∃ frames : AudioFrame × VideoFrame,
      (afterAll [.tick m, .handle m.files .togglePause] h).stage.calls =
        [.report (.noRoms h.desk.romDir), .overlay h.desk.overlay, .take (.ok []),
          .overlay h.desk.overlay, .poll (.ok 0)] ++
        .play frames.1 (.error "speaker refused") ::
          [.report (.soundDisabled "speaker refused"), .draw frames.2 (.ok ()), .report .paused,
            .stop (.ok ())] := by
  intro m keypad speaker screen h
  obtain ⟨-, hstage, hpaused, -⟩ := tick_of_no_commands h rfl rfl rfl rfl m
  refine ⟨Machine.frames (after (tick m) h).machine.memory, ?_⟩
  rw [afterAll_cons, afterAll_cons, after_serve_tick, after_serve_handle, handle,
    after_togglePause_of_running hpaused, afterAll, List.foldl_nil]
  dsimp only
  rw [calls_stopSound_toggled hpaused, toggled, hstage]
  rfl

theorem pause_calls_broken_speaker :
    let m : Moment := ⟨0, [], []⟩
    let keypad : ScriptedKeypad := {}
    let speaker : ScriptedSpeaker := { failPlay := [1] }
    let screen : ScriptedScreen := {}
    let console : Traced (Devices _ _ _) := ⟨⟨keypad, speaker, screen, {}⟩, #[]⟩
    ∃ h, start {} console m = .ok h ∧ ∃ before frame reason rest,
      (afterAll [.tick m, .handle m.files .togglePause] h).stage.calls =
        before ++ .play frame (.error reason) :: rest ∧
      .stop (.ok ()) ∈ rest := by
  intro m keypad speaker screen console
  obtain ⟨frames, hcalls⟩ := calls_of_refused_play
  exact ⟨_, start_eq_bare {} m (by decide +kernel) console, _, _, _, _, hcalls, by simp⟩

theorem broken_speaker_left_alone_iff_of_pause :
    let m : Moment := ⟨0, [], []⟩
    let keypad : ScriptedKeypad := {}
    let speaker : ScriptedSpeaker := { failPlay := [1] }
    let screen : ScriptedScreen := {}
    let console : Traced (Devices _ _ _) := ⟨⟨keypad, speaker, screen, {}⟩, #[]⟩
    let requests : List Request := [.tick m, .handle m.files .togglePause]
    ∃ h, start {} console m = .ok h ∧ ∃ before frame reason rest,
      (afterAll requests h).stage.calls = before ++ .play frame (.error reason) :: rest ∧
      ∃ later, rest = .report (.soundDisabled reason) :: later ∧
        ((∀ c ∈ later, c.isSpeaker = false) ↔
          (∀ c ∈ later, c.isPause = false) ∧ ¬quitsLoop requests h) := by
  intro m keypad speaker screen console requests
  obtain ⟨frames, hcalls⟩ := calls_of_refused_play
  have hs := start_eq_bare {} m (by decide +kernel) console
  obtain ⟨later, hrest, -, -, hiff⟩ := broken_speaker_left_alone_iff hs requests hcalls
  exact ⟨_, hs, _, _, _, _, hcalls, later, hrest, hiff⟩

end Host

end CopyJump
