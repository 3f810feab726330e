import CopyJump.Proofs.SpeakerUse

namespace CopyJump

open List (replicate)

namespace Call

def isDevice : Call → Bool
  | .report _ => false
  | _ => true

def isPause : Call → Bool
  | .report .paused => true
  | _ => false

end Call

/-- Calls in which the speaker is silenced just after each pause, and never else. -/
inductive Paired : List Call → Prop
  | nil : Paired []
  | other {c : Call} {calls : List Call} (hstop : c.isStop = false) (hpause : c.isPause = false) :
      Paired calls → Paired (c :: calls)
  | pause (result : Except String Unit) {calls : List Call} :
      Paired calls → Paired (.report .paused :: .stop result :: calls)

namespace Paired

theorem of_other {calls : List Call} (h : ∀ c ∈ calls, c.isStop = false ∧ c.isPause = false) :
    Paired calls := by
  induction calls with
  | nil => exact .nil
  | cons c calls ih =>
    obtain ⟨hstop, hpause⟩ := h c List.mem_cons_self
    exact .other hstop hpause (ih fun d hd ↦ h d (List.mem_cons_of_mem c hd))

theorem append {calls calls' : List Call} (h : Paired calls) (h' : Paired calls') :
    Paired (calls ++ calls') := by
  induction h with
  | nil => exact h'
  | other hstop hpause _ ih => exact .other hstop hpause ih
  | pause result _ ih => exact .pause result ih

end Paired

def pauses : Bool → List HostCommand → Nat
  | _, [] => 0
  | paused, command :: commands =>
    if command = .togglePause then (!paused).toNat + pauses (!paused) commands
    else pauses paused commands

def pausedAfter (paused : Bool) (commands : List HostCommand) : Bool :=
  commands.foldl (fun paused command ↦ if command = .togglePause then !paused else paused) paused

theorem pauses_cons (paused : Bool) (command : HostCommand) (commands : List HostCommand) :
    pauses paused (command :: commands) =
      pauses paused [command] + pauses (pausedAfter paused [command]) commands := by
  by_cases hc : command = .togglePause <;> simp [pauses, pausedAfter, hc]

namespace Host

variable {C : Type}

/-- The calls that handling commands makes on the devices, with the error it ends with. -/
inductive BatchCalls (commands : List HostCommand) (h h' : Host C) :
    List Call → Option Error → Prop
  | done (hpaused : h'.desk.paused = pausedAfter h.desk.paused commands)
      (hquit : h'.desk.quit = (h.desk.quit || commands.contains .quit)) :
      BatchCalls commands h h' (replicate (pauses h.desk.paused commands) (.stop (.ok ()))) none
  | stuck (stops : Nat) (hstops : stops < pauses h.desk.paused commands) (reason : String) :
      BatchCalls commands h h' (replicate stops (.stop (.ok ())) ++ [.stop (.error reason)])
        (some (.sound reason))

theorem BatchCalls.cons {command : HostCommand} {commands : List HostCommand} {h h' h'' : Host C}
    {calls calls' : List Call} {fault : Option Error} (hb : BatchCalls [command] h h' calls none)
    (hb' : BatchCalls commands h' h'' calls' fault) :
    BatchCalls (command :: commands) h h'' (calls ++ calls') fault := by
  obtain ⟨hpaused, hquit⟩ := hb
  have hcount := pauses_cons h.desk.paused command commands
  rw [← hpaused] at hcount
  cases hb' with
  | done hpaused' hquit' =>
    rw [List.replicate_append_replicate, ← hcount]
    refine .done ?_ ?_
    · rw [hpaused', hpaused]
      rfl
    · rw [hquit', hquit, List.contains_cons, List.contains_cons, Bool.or_assoc]
      simp
  | stuck stops hstops reason =>
    rw [← List.append_assoc, List.replicate_append_replicate]
    exact .stuck _ (by omega) reason

theorem BatchCalls.of_error {command : HostCommand} {h h' : Host C} {calls : List Call} {e : Error}
    (hb : BatchCalls [command] h h' calls (some e)) (commands : List HostCommand) (h'' : Host C) :
    BatchCalls (command :: commands) h h'' calls (some e) := by
  cases hb with
  | stuck stops hstops reason =>
    have hcount := pauses_cons h.desk.paused command commands
    exact .stuck stops (by omega) reason

theorem Quiet.batch {h h' : Host (Traced C)} (hquiet : Quiet h h') {command : HostCommand}
    (hpause : command ≠ .togglePause) (hquit : command ≠ .quit) :
    ∃ said, h'.stage.calls = h.stage.calls ++ said ∧ Paired said ∧
      BatchCalls [command] h h' (said.filter Call.isDevice) none := by
  obtain ⟨said, hsaid, hcalls⟩ := hquiet.calls
  refine ⟨said.map .report, hcalls, .of_other ?_, ?_⟩
  · intro c hc
    obtain ⟨m, hm, rfl⟩ := List.mem_map.mp hc
    refine ⟨rfl, ?_⟩
    have hnews := hsaid m hm
    cases m <;> first | rfl | cases hnews
  · have hnone : (said.map Call.report).filter Call.isDevice = [] := by
      simp [List.filter_eq_nil_iff, Call.isDevice]
    have hcount : pauses h.desk.paused [command] = 0 := by simp [pauses, hpause]
    have hdone : BatchCalls [command] h h' _ none := .done
      (by simp [hquiet.paused, pausedAfter, hpause]) (by simp [hquiet.quit, Ne.symm hquit])
    rw [hcount] at hdone
    rwa [hnone]

theorem BatchCalls.of_desk_eq {commands : List HostCommand} {h₀ h h' : Host C} {calls : List Call}
    {fault : Option Error} (hdesk : h.desk = h₀.desk) (hb : BatchCalls commands h h' calls fault) :
    BatchCalls commands h₀ h' calls fault := by
  cases hb with
  | done hpaused hquit =>
    rw [hdesk] at hpaused hquit ⊢
    exact .done hpaused hquit
  | stuck stops hstops reason =>
    rw [hdesk] at hstops
    exact .stuck stops hstops reason

variable [Console C]

theorem quiet_browse (files : FileTree) {f : Library → Library} (h : Host (Traced C)) :
    outcome (browse files f) h = .ok () ∧ Quiet h (after (browse files f) h) := by
  by_cases he : h.desk.library.isEmpty = true
  · have hbrowse : browse files f h = .ok () h := by
      rw [browse, bind_eq_of_ok (getDesk_apply h), if_pos he]
      rfl
    simp only [outcome, after, hbrowse, true_and]
    exact .of_silent (.refl h) rfl rfl rfl
  · obtain ⟨h', hh'⟩ : ∃ h', h' =
      ({ h with desk := { h.desk with library := f h.desk.library } } : Host (Traced C)) := ⟨_, rfl⟩
    have hbrowse : browse files f h = reload files h' := by
      rw [browse, bind_eq_of_ok (getDesk_apply h), if_neg he, hh']
      rfl
    have hmove : Quiet h h' := by
      rw [hh']
      exact .of_silent ⟨rfl, rfl, rfl, rfl⟩ rfl rfl rfl
    obtain ⟨hout, hquiet⟩ := quiet_reload files h'
    rw [outcome, after, hbrowse]
    exact ⟨hout, hmove.trans hquiet⟩

theorem quiet_handle (files : FileTree) {command : HostCommand} (hpause : command ≠ .togglePause)
    (hquit : command ≠ .quit) (h : Host (Traced C)) :
    outcome (handle files command) h = .ok () ∧ Quiet h (after (handle files command) h) := by
  cases command with
  | nextRom => exact quiet_browse files h
  | previousRom => exact quiet_browse files h
  | togglePause => exact absurd rfl hpause
  | fasterFrameRate => exact quiet_setFrameRate _ h
  | slowerFrameRate => exact quiet_setFrameRate _ h
  | resetFrameRate => exact quiet_setFrameRate _ h
  | toggleHelp => exact ⟨rfl, .of_silent ⟨rfl, rfl, rfl, rfl⟩ rfl rfl rfl⟩
  | toggleInfo => exact ⟨rfl, .of_silent ⟨rfl, rfl, rfl, rfl⟩ rfl rfl rfl⟩
  | quit => exact absurd rfl hquit

theorem handle_batch (files : FileTree) (command : HostCommand) (h : Host (Traced C)) :
    let h' := after (handle files command) h
    Kept h h' ∧ ∃ said, h'.stage.calls = h.stage.calls ++ said ∧ Paired said ∧
      BatchCalls [command] h h' (said.filter Call.isDevice) (fault? (handle files command) h) := by
  intro h'
  by_cases hpause : command = .togglePause
  · subst hpause
    -- Resuming only says so; pausing calls the speaker, and is stuck if that fails.
    have hh' : h' = after togglePause h := rfl
    have hfault : fault? (handle files .togglePause) h = fault? togglePause h := rfl
    rw [hfault, hh', fault?, outcome, after]
    cases hp : h.desk.paused with
    | true =>
      have hcalls := h.calls_toggled
      rw [hp, if_pos rfl] at hcalls
      rw [togglePause_of_paused hp]
      refine ⟨⟨rfl, rfl, rfl, rfl⟩, _, hcalls, .of_other (by simp [Call.isStop, Call.isPause]), ?_⟩
      have hcount : pauses h.desk.paused [.togglePause] = 0 := by simp [pauses, hp]
      have hdone : BatchCalls [.togglePause] h h.toggled _ none :=
        .done (by simp [toggled, noted, pausedAfter]) (by simp [toggled, noted])
      rwa [hcount] at hdone
    | false =>
      have hcalls := calls_stopSound_toggled hp
      have hcount : pauses h.desk.paused [.togglePause] = 1 := by simp [pauses, hp]
      have hout := outcome_onStage Stage.stopSound h.toggled
      have hafter := after_onStage Stage.stopSound h.toggled
      rw [outcome] at hout
      rw [after] at hafter
      rw [togglePause_of_running hp, hout, hafter, Stage.stopSound_fst]
      refine ⟨⟨rfl, rfl, rfl, rfl⟩, _, hcalls, .pause _ .nil, ?_⟩
      cases (Console.stop h.toggled.stage.console.inner).1 with
      | ok _ =>
        have hdone : BatchCalls [.togglePause] h
            { h.toggled with stage := h.toggled.stage.stopSound.2 } _ none :=
          .done (by simp [toggled, noted, pausedAfter]) (by simp [toggled, noted])
        rwa [hcount] at hdone
      | error reason => exact .stuck 0 (by omega) reason
  · by_cases hquit : command = .quit
    · subst hquit
      have hh' : h' = { h with desk := { h.desk with quit := true } } := rfl
      rw [hh']
      exact ⟨⟨rfl, rfl, rfl, rfl⟩, [], (List.append_nil _).symm, .nil, .done rfl (by simp)⟩
    · obtain ⟨hout, hquiet⟩ := quiet_handle files hpause hquit h
      rw [fault?, hout]
      exact ⟨hquiet.toKept, hquiet.batch hpause hquit⟩

theorem handleAll_batch (files : FileTree) (commands : List HostCommand) (h : Host (Traced C)) :
    let h' := after (handleAll files commands) h
    Kept h h' ∧ ∃ said, h'.stage.calls = h.stage.calls ++ said ∧ Paired said ∧
      BatchCalls commands h h' (said.filter Call.isDevice)
        (fault? (handleAll files commands) h) := by
  induction commands generalizing h with
  | nil =>
    exact ⟨.refl h, [], (List.append_nil _).symm, .nil, .done rfl (Bool.or_false _).symm⟩
  | cons command commands ih =>
    obtain ⟨hkept, said, hcalls, hpaired, hbatch⟩ := handle_batch files command h
    have hcons : handleAll (C := Traced C) files (command :: commands) =
        handle files command >>= fun _ ↦ handleAll files commands := rfl
    rw [hcons, fault?, outcome_bind, after_bind]
    cases hout : outcome (handle files command) h with
    | error e =>
      rw [fault?, hout] at hbatch
      exact ⟨hkept, said, hcalls, hpaired, hbatch.of_error commands _⟩
    | ok _ =>
      rw [fault?, hout] at hbatch
      obtain ⟨hkept', said', hcalls', hpaired', hbatch'⟩ := ih (after (handle files command) h)
      refine ⟨hkept.trans hkept', said ++ said', ?_, hpaired.append hpaired', ?_⟩
      · dsimp only
        rw [hcalls', hcalls, List.append_assoc]
      · rw [List.filter_append]
        exact hbatch.cons hbatch'

end Host

end CopyJump
