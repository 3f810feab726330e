import CopyJump.Proofs.StageCalls

namespace CopyJump

def Machine.advanceBy (keys : UInt16) (n : Nat) : Memory → Memory := (advance · keys)^[n]

theorem Machine.advanceBy_succ (keys : UInt16) (n : Nat) (m : Memory) :
    advanceBy keys (n + 1) m = advanceBy keys n (advance m keys) :=
  Function.iterate_succ_apply (advance · keys) n m

variable {C : Type} [Console C] {keys : UInt16} {I : C → Prop}

/-- Whatever is asked of a console that is as it should be, it does not fail, gives these keys, has
no commands, and is as it should be after that. -/
structure Steady (keys : UInt16) (I : C → Prop) : Prop where
  take (c) : I c → ∃ c', Console.takeCommands c = (.ok [], c') ∧ I c'
  poll (c) : I c → ∃ c', Console.poll c = (.ok keys, c') ∧ I c'
  play (c frame) : I c → ∃ c', Console.play c frame = (.ok (), c') ∧ I c'
  draw (c frame) : I c → ∃ c', Console.draw c frame = (.ok (), c') ∧ I c'
  overlay (c lines) : I c → I (Console.setOverlay c lines)
  report (c m) : I c → I (Console.report c m)

def lastDrawn (calls : List Call) : Option VideoFrame :=
  calls.foldl (fun last call ↦
    match call with | .draw frame (.ok ()) => some frame | _ => last) none

def lastPlayed (calls : List Call) : Option AudioFrame :=
  calls.foldl (fun last call ↦
    match call with | .play frame (.ok ()) => some frame | _ => last) none

namespace Stage

theorem takeCommands_steady (steady : Steady keys I) {s : Stage (Traced C)}
    (hs : I s.console.inner) :
    ∃ inner, s.takeCommands =
        (.ok [], { s with console := ⟨inner, s.console.calls.push (.take (.ok []))⟩ }) ∧
      I inner := by
  obtain ⟨inner, htake, hi⟩ := steady.take _ hs
  refine ⟨inner, ?_, hi⟩
  have htraced : Console.takeCommands s.console =
      (.ok [], ⟨inner, s.console.calls.push (.take (.ok []))⟩) := by
    simp only [Console.takeCommands, htake]
  simp only [takeCommands, htraced]
  rfl

theorem poll_steady (steady : Steady keys I) {s : Stage (Traced C)} (hs : I s.console.inner) :
    ∃ inner, s.poll =
        (.ok keys, { s with console := ⟨inner, s.console.calls.push (.poll (.ok keys))⟩ }) ∧
      I inner := by
  obtain ⟨inner, hpoll, hi⟩ := steady.poll _ hs
  refine ⟨inner, ?_, hi⟩
  have htraced : Console.poll s.console =
      (.ok keys, ⟨inner, s.console.calls.push (.poll (.ok keys))⟩) := by
    simp only [Console.poll, hpoll]
  simp only [poll, htraced]
  rfl

theorem takeAudio_steady (steady : Steady keys I) {s : Stage (Traced C)} (hs : I s.console.inner)
    (hok : s.soundOk = true) (frame : AudioFrame) :
    ∃ inner, s.takeAudio frame =
        (.ok (), { s with console := ⟨inner, s.console.calls.push (.play frame (.ok ()))⟩ }) ∧
      I inner := by
  obtain ⟨inner, hplay, hi⟩ := steady.play _ frame hs
  refine ⟨inner, ?_, hi⟩
  have htraced : Console.play s.console frame =
      (.ok (), ⟨inner, s.console.calls.push (.play frame (.ok ()))⟩) := by
    simp only [Console.play, hplay]
  rw [takeAudio, if_pos hok, htraced]

theorem takeVideo_steady (steady : Steady keys I) {s : Stage (Traced C)} (hs : I s.console.inner)
    (frame : VideoFrame) :
    ∃ inner, s.takeVideo frame =
        (.ok (), { s with
          console := ⟨inner, s.console.calls.push (.draw frame (.ok ()))⟩
          lastVideo := some frame }) ∧
      I inner := by
  obtain ⟨inner, hdraw, hi⟩ := steady.draw _ frame hs
  refine ⟨inner, ?_, hi⟩
  have htraced : Console.draw s.console frame =
      (.ok (), ⟨inner, s.console.calls.push (.draw frame (.ok ()))⟩) := by
    simp only [Console.draw, hdraw]
  rw [takeVideo, htraced]

theorem present_steady (steady : Steady keys I) {s : Stage (Traced C)} (hs : I s.console.inner)
    (hok : s.soundOk = true) (frames : AudioFrame × VideoFrame) :
    ∃ inner, s.present frames =
        (.ok (), { s with
          console := ⟨inner, (s.console.calls.push (.play frames.1 (.ok ()))).push
            (.draw frames.2 (.ok ()))⟩
          lastVideo := some frames.2 }) ∧
      I inner := by
  obtain ⟨inner, haudio, hi⟩ := takeAudio_steady steady hs hok frames.1
  rw [present, haudio]
  exact takeVideo_steady steady hi frames.2

end Stage

namespace Host

structure Running (I : C → Prop) (h : Host (Traced C)) : Prop where
  console : I h.stage.console.inner
  soundOk : h.stage.soundOk = true
  quit : h.desk.quit = false
  paused : h.desk.paused = false

/-- The last frames shown are those that the machine made. -/
def Shows (h : Host (Traced C)) : Prop :=
  lastDrawn h.stage.calls = some (Machine.frames h.machine.memory).2 ∧
    lastPlayed h.stage.calls = some (Machine.frames h.machine.memory).1

theorem runFrame_running (steady : Steady keys I) {h : Host (Traced C)} (hr : Running I h) :
    ∃ h', runFrame h = .ok () h' ∧ Running I h' ∧ Shows h' ∧ h'.desk = h.desk ∧
      h'.machine = ⟨Machine.advance h.machine.memory keys, h.machine.framesRun + 1⟩ := by
  obtain ⟨inner, hpoll, hi⟩ := Stage.poll_steady steady hr.console
  rcases runFrame_cases h with ⟨e, s, hp, -⟩ | ⟨mask, s, memory, hp, hmemory, hout, hafter⟩
  · rw [hpoll] at hp
    cases hp
  · rw [hpoll] at hp
    obtain ⟨hkeys, hs⟩ := Prod.mk.inj hp
    cases hkeys
    have hi' : I s.console.inner := by
      rw [← hs]
      exact hi
    have hok : s.soundOk = true := by
      rw [← hs]
      exact hr.soundOk
    obtain ⟨inner', hpresent, hi'⟩ := Stage.present_steady steady hi' hok (Machine.frames memory)
    rw [hpresent] at hout hafter
    refine ⟨_, eq_ok_of_outcome hout, ?_⟩
    rw [hafter, hmemory]
    refine ⟨⟨hi', hok, hr.quit, hr.paused⟩, ?_, rfl, rfl⟩
    constructor
    · simp only [lastDrawn, Stage.calls, Array.toList_push, List.foldl_concat]
    · simp only [lastPlayed, Stage.calls, Array.toList_push, List.foldl_concat]

theorem Running.overlaid (steady : Steady keys I) {h : Host (Traced C)} (hr : Running I h) :
    Running I h.overlaid :=
  ⟨steady.overlay _ _ hr.console, hr.soundOk, hr.quit, hr.paused⟩

theorem refresh_running (steady : Steady keys I) {h : Host (Traced C)} (hr : Running I h)
    (now : Time) :
    ∃ h', refresh now h = .ok () h' ∧ Running I h' ∧ Shows h' ∧ h'.desk.rom = h.desk.rom ∧
      h'.machine = ⟨Machine.advance h.machine.memory keys, h.machine.framesRun + 1⟩ := by
  obtain ⟨h', hrun, hr', hshows, hdesk, hmachine⟩ :=
    runFrame_running steady (hr.overlaid steady)
  refine ⟨{ h' with desk := { h'.desk with counter := h'.desk.counter.tick now } }, ?_,
    ⟨hr'.console, hr'.soundOk, hr'.quit, hr'.paused⟩, hshows, ?_, hmachine⟩
  · exact refresh_eq_ok hr.quit hr.paused hrun now
  · show h'.desk.rom = h.desk.rom
    rw [hdesk]
    rfl

theorem tick_running (steady : Steady keys I) {h : Host (Traced C)} (hr : Running I h)
    (m : Moment) :
    ∃ h', tick m h = .ok () h' ∧ Running I h' ∧ Shows h' ∧ h'.desk.rom = h.desk.rom ∧
      h'.machine = ⟨Machine.advance h.machine.memory keys, h.machine.framesRun + 1⟩ := by
  obtain ⟨inner, htake, hi⟩ := Stage.takeCommands_steady steady hr.console
  obtain ⟨h', hh'⟩ : ∃ h' : Host (Traced C), h' = { h with
      stage.console := ⟨inner, h.stage.console.calls.push (.take (.ok []))⟩ } := ⟨_, rfl⟩
  have htick : tick m h = refresh m.now h' := by
    obtain ⟨machine, stage, desk⟩ := h
    have hcommands : onStage Stage.takeCommands ⟨machine, stage, desk⟩ = .ok [] h' := by
      simp only [onStage, htake, hh']
    exact tick_eq_refresh hcommands m
  have hr' : Running I h' := by
    rw [hh']
    exact ⟨hi, hr.soundOk, hr.quit, hr.paused⟩
  have hrefresh := refresh_running steady hr' m.now
  rw [htick]
  rwa [hh'] at hrefresh ⊢

theorem ticks_running (steady : Steady keys I) (moments : List Moment) {h : Host (Traced C)}
    (hr : Running I h) :
    outcomes (moments.map .tick) h = List.replicate moments.length (.ok false) ∧
      (moments ≠ [] ∨ Shows h → Shows (afterAll (moments.map .tick) h)) ∧
      (afterAll (moments.map .tick) h).desk.rom = h.desk.rom ∧
      (afterAll (moments.map .tick) h).machine =
        ⟨Machine.advanceBy keys moments.length h.machine.memory,
          h.machine.framesRun + moments.length⟩ := by
  induction moments generalizing h with
  | nil =>
    refine ⟨rfl, fun hs ↦ hs.resolve_left fun hn ↦ hn rfl, rfl, rfl⟩
  | cons m moments ih =>
    obtain ⟨h', htick, hr', hshows, hrom, hmachine⟩ := tick_running steady hr m
    obtain ⟨hout, hshown, hrom', hmachine'⟩ := ih hr'
    have hserve : serve (.tick m) h = .ok false h' := bind_eq_of_ok htick _
    have hall : afterAll ((m :: moments).map .tick) h = afterAll (moments.map .tick) h' := by
      simp only [List.map_cons, afterAll, List.foldl_cons, after, hserve]
    rw [hall]
    have hcount : h.machine.framesRun + 1 + moments.length =
        h.machine.framesRun + (moments.length + 1) := by omega
    refine ⟨?_, fun _ ↦ hshown (.inr hshows), hrom'.trans hrom, ?_⟩
    · simp only [List.map_cons, outcomes, outcome, after, hserve, hout, List.length_cons,
        List.replicate_succ]
    · rw [hmachine', hmachine, List.length_cons, Machine.advanceBy_succ]
      dsimp only
      rw [hcount]

end Host

end CopyJump
