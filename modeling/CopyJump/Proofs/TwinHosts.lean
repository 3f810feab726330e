import CopyJump.Proofs.HostParts

namespace CopyJump

variable {C D α β : Type}

/-- A result after which two runs need not be alike. -/
def Excused (excused : Error → Prop) (result : Except Error α) : Prop :=
  ∃ e, result = .error e ∧ excused e

/-- Done to stages that are alike, two things give the same and leave the stages alike. -/
def Stage.Twin (excused : Error → Prop) (alike : Stage C → Stage D → Prop)
    (f : Stage C → Except Error α × Stage C) (g : Stage D → Except Error α × Stage D) : Prop :=
  ∀ s t, alike s t → ((f s).1 = (g t).1 ∧ alike (f s).2 (g t).2) ∨
    Excused excused (f s).1 ∨ Excused excused (g t).1

namespace Host

structure Alike (alike : Stage C → Stage D → Prop) (h : Host C) (h' : Host D) : Prop where
  machine : h.machine = h'.machine
  desk : h.desk = h'.desk
  stage : alike h.stage h'.stage

def Twin (excused : Error → Prop) (alike : Stage C → Stage D → Prop)
    (x : HostM C α) (y : HostM D α) : Prop :=
  ∀ h h', Alike alike h h' →
    (outcome x h = outcome y h' ∧ Alike alike (after x h) (after y h')) ∨
      Excused excused (outcome x h) ∨ Excused excused (outcome y h')

variable {excused : Error → Prop} {alike : Stage C → Stage D → Prop}

theorem Excused.bind {x : HostM C α} {f : α → HostM C β} {h : Host C}
    (hx : Excused excused (outcome x h)) : Excused excused (outcome (x >>= f) h) := by
  obtain ⟨e, ho, he⟩ := hx
  refine ⟨e, ?_, he⟩
  rw [outcome_bind, ho]

namespace Twin

theorem pure (a : α) :
    Twin excused alike (Pure.pure a : HostM C α) (Pure.pure a : HostM D α) :=
  fun _ _ ha ↦ .inl ⟨rfl, ha⟩

theorem bind {x : HostM C α} {y : HostM D α} {f : α → HostM C β} {g : α → HostM D β}
    (hx : Twin excused alike x y) (hf : ∀ a, Twin excused alike (f a) (g a)) :
    Twin excused alike (x >>= f) (y >>= g) := by
  intro h h' ha
  rcases hx h h' ha with ⟨ho, hafter⟩ | he | he
  · simp only [outcome_bind, after_bind, ← ho]
    cases outcome x h with
    | ok a => exact hf a _ _ hafter
    | error e => exact .inl ⟨rfl, hafter⟩
  · exact .inr (.inl (Excused.bind he))
  · exact .inr (.inr (Excused.bind he))

theorem tryCatch {x : HostM C α} {y : HostM D α} {f : Error → HostM C α} {g : Error → HostM D α}
    (hx : Twin (fun _ ↦ False) alike x y) (hf : ∀ e, Twin excused alike (f e) (g e)) :
    Twin excused alike (MonadExcept.tryCatch x f) (MonadExcept.tryCatch y g) := by
  intro h h' ha
  rcases hx h h' ha with ⟨ho, hafter⟩ | ⟨_, _, he⟩ | ⟨_, _, he⟩
  · have hox := outcome_tryCatch x f h
    have hax := after_tryCatch x f h
    have hoy := outcome_tryCatch y g h'
    have hay := after_tryCatch y g h'
    rw [← ho] at hoy hay
    cases hr : outcome x h with
    | ok a =>
      rw [hr] at hox hax hoy hay
      exact .inl ⟨hox.trans hoy.symm, by rw [hax, hay]; exact hafter⟩
    | error e =>
      rw [hr] at hox hax hoy hay
      rw [hox, hax, hoy, hay]
      exact hf e _ _ hafter
  · exact he.elim
  · exact he.elim

theorem onStage {f : Stage C → Except Error α × Stage C} {g : Stage D → Except Error α × Stage D}
    (hf : Stage.Twin excused alike f g) :
    Twin excused alike (Host.onStage f) (Host.onStage g) := by
  intro h h' ha
  simp only [outcome_onStage, after_onStage]
  rcases hf h.stage h'.stage ha.stage with ⟨ho, hs⟩ | he
  · exact .inl ⟨ho, ha.machine, ha.desk, hs⟩
  · exact .inr he

theorem getDesk_bind {f : Desk → HostM C β} {g : Desk → HostM D β}
    (hf : ∀ desk, Twin excused alike (f desk) (g desk)) :
    Twin excused alike (getDesk >>= f) (getDesk >>= g) :=
  bind (fun _ _ ha ↦ .inl ⟨congrArg Except.ok ha.desk, ha⟩) hf

theorem modifyDesk (f : Desk → Desk) :
    Twin excused alike (Host.modifyDesk f : HostM C Unit) (Host.modifyDesk f : HostM D Unit) :=
  fun _ _ ha ↦ .inl ⟨rfl, ha.machine, congrArg f ha.desk, ha.stage⟩

theorem ofExcept (r : Except Error α) :
    Twin excused alike (MonadExcept.ofExcept r : HostM C α) (MonadExcept.ofExcept r) := by
  cases r with
  | ok a => exact pure a
  | error e => exact fun _ _ ha ↦ .inl ⟨rfl, ha⟩

theorem insertRom (rom : ByteArray) :
    Twin excused alike (Host.insertRom rom : HostM C _) (Host.insertRom rom : HostM D _) := by
  rintro ⟨machine, stage, desk⟩ ⟨machine', stage', desk'⟩ ⟨hm, hd, hs⟩
  cases hm
  exact .inl ⟨rfl, rfl, hd, hs⟩

theorem advanceMachine (keys : UInt16) :
    Twin excused alike (Host.advanceMachine keys : HostM C _)
      (Host.advanceMachine keys : HostM D _) := by
  rintro ⟨machine, stage, desk⟩ ⟨machine', stage', desk'⟩ ⟨hm, hd, hs⟩
  cases hm
  exact .inl ⟨rfl, rfl, hd, hs⟩

end Twin

variable [Console C] [Console D]

/-- Consoles on which two hosts that start alike stay alike. -/
structure Twins (excused : Error → Prop) (alike : Stage C → Stage D → Prop) : Prop where
  take : Stage.Twin excused alike Stage.takeCommands Stage.takeCommands
  poll : Stage.Twin excused alike Stage.poll Stage.poll
  present (frames) : Stage.Twin excused alike (·.present frames) (·.present frames)
  redraw : Stage.Twin excused alike Stage.redraw Stage.redraw
  stop : Stage.Twin excused alike Stage.stopSound Stage.stopSound
  overlay (s t lines) : alike s t → alike (s.setOverlay lines) (t.setOverlay lines)
  report (s t m) : alike s t → alike (s.report m) (t.report m)

namespace Twins

theorem notify (twins : Twins excused alike) (excused' : Error → Prop) (m : Message) :
    Twin excused' alike (Host.notify m : HostM C Unit) (Host.notify m : HostM D Unit) := by
  intro h h' ha
  refine .inl ⟨rfl, ha.machine, ?_, twins.report _ _ m ha.stage⟩
  exact congrArg (fun d : Desk ↦ { d with status := some m.text }) ha.desk

theorem reporting (twins : Twins excused alike) (excused' : Error → Prop) (m : Message) :
    Twin excused' alike (Host.report m : HostM C Unit) (Host.report m : HostM D Unit) :=
  fun _ _ ha ↦ .inl ⟨rfl, ha.machine, ha.desk, twins.report _ _ m ha.stage⟩

theorem overlaid (twins : Twins excused alike) {h : Host C} {h' : Host D}
    (ha : Alike alike h h') : Alike alike h.overlaid h'.overlaid := by
  have hlines : h.desk.overlay = h'.desk.overlay := congrArg Desk.overlay ha.desk
  have hs := twins.overlay _ _ h.desk.overlay ha.stage
  refine ⟨ha.machine, ha.desk, ?_⟩
  change alike (h.stage.setOverlay _) (h'.stage.setOverlay h'.desk.overlay)
  rwa [← hlines]

theorem loadCurrent (twins : Twins excused alike) (excused' : Error → Prop) (files : FileTree) :
    Twin excused' alike (Host.loadCurrent files : HostM C Unit)
      (Host.loadCurrent files : HostM D Unit) := by
  refine Twin.getDesk_bind fun desk ↦ ?_
  refine Twin.bind (Twin.ofExcept _) fun pair ↦ ?_
  refine Twin.bind (Twin.insertRom _) fun result ↦ ?_
  cases result with
  | ok _ => exact Twin.bind (twins.notify _ _) fun _ ↦ Twin.modifyDesk _
  | error e => exact Twin.bind (twins.reporting _ _) fun _ ↦ Twin.modifyDesk _

theorem browse (twins : Twins excused alike) (files : FileTree) (move : Library → Library) :
    Twin excused alike (Host.browse files move : HostM C Unit)
      (Host.browse files move : HostM D Unit) := by
  refine Twin.getDesk_bind fun desk ↦ ?_
  by_cases he : desk.library.isEmpty = true
  · rw [if_pos he, if_pos he]
    exact Twin.pure _
  · rw [if_neg he, if_neg he]
    refine Twin.bind (Twin.modifyDesk _) fun _ ↦ ?_
    exact Twin.tryCatch (twins.loadCurrent _ files) fun e ↦ twins.notify _ _

theorem setFrameRate (twins : Twins excused alike) (rate : Nat) :
    Twin excused alike (Host.setFrameRate rate : HostM C Unit)
      (Host.setFrameRate rate : HostM D Unit) := by
  refine Twin.getDesk_bind fun desk ↦ ?_
  by_cases hr : FrameRate.clamp rate = desk.frameRate
  · simp only [if_pos hr]
    exact Twin.pure _
  · simp only [if_neg hr]
    exact Twin.bind (twins.notify _ _) fun _ ↦ Twin.modifyDesk _

theorem togglePause (twins : Twins excused alike) :
    Twin excused alike (Host.togglePause : HostM C Unit) (Host.togglePause : HostM D Unit) := by
  refine Twin.getDesk_bind fun desk ↦ ?_
  refine Twin.bind (Twin.modifyDesk _) fun _ ↦ Twin.bind (twins.notify _ _) fun _ ↦ ?_
  by_cases hp : (!desk.paused) = true
  · rw [if_pos hp, if_pos hp]
    exact Twin.onStage twins.stop
  · rw [if_neg hp, if_neg hp]
    exact Twin.pure _

theorem handle (twins : Twins excused alike) (files : FileTree) (command : HostCommand) :
    Twin excused alike (Host.handle files command : HostM C Unit)
      (Host.handle files command : HostM D Unit) := by
  cases command with
  | nextRom => exact twins.browse files _
  | previousRom => exact twins.browse files _
  | togglePause => exact twins.togglePause
  | fasterFrameRate => exact Twin.getDesk_bind fun _ ↦ twins.setFrameRate _
  | slowerFrameRate => exact Twin.getDesk_bind fun _ ↦ twins.setFrameRate _
  | resetFrameRate => exact twins.setFrameRate _
  | toggleHelp => exact Twin.modifyDesk fun d ↦ { d with showHelp := !d.showHelp }
  | toggleInfo => exact Twin.modifyDesk fun d ↦ { d with showInfo := !d.showInfo }
  | quit => exact Twin.modifyDesk fun d ↦ { d with quit := true }

theorem handleAll (twins : Twins excused alike) (files : FileTree) (commands : List HostCommand) :
    Twin excused alike (Host.handleAll files commands : HostM C Unit)
      (Host.handleAll files commands : HostM D Unit) := by
  induction commands with
  | nil => exact Twin.pure _
  | cons command commands ih => exact Twin.bind (twins.handle files command) fun _ ↦ ih

theorem runFrame (twins : Twins excused alike) :
    Twin excused alike (Host.runFrame : HostM C Unit) (Host.runFrame : HostM D Unit) := by
  rw [runFrame_eq, runFrame_eq]
  exact Twin.bind (Twin.onStage twins.poll) fun keys ↦
    Twin.bind (Twin.advanceMachine keys) fun frames ↦ Twin.onStage (twins.present frames)

theorem refresh (twins : Twins excused alike) (now : Time) :
    Twin excused alike (Host.refresh now : HostM C Unit) (Host.refresh now : HostM D Unit) := by
  refine Twin.getDesk_bind fun desk ↦ ?_
  by_cases hq : desk.quit = true
  · rw [if_pos hq, if_pos hq]
    exact Twin.pure _
  rw [if_neg hq, if_neg hq]
  refine Twin.bind (fun _ _ ha ↦ .inl ⟨rfl, twins.overlaid ha⟩) fun _ ↦
    Twin.getDesk_bind fun desk ↦ ?_
  by_cases hp : desk.paused = true
  · rw [if_pos hp, if_pos hp]
    exact Twin.onStage twins.redraw
  · rw [if_neg hp, if_neg hp]
    exact Twin.bind twins.runFrame fun _ ↦ Twin.modifyDesk _

theorem tick (twins : Twins excused alike) (m : Moment) :
    Twin excused alike (Host.tick m : HostM C Unit) (Host.tick m : HostM D Unit) := by
  rw [tick_eq, tick_eq]
  exact Twin.bind (Twin.onStage twins.take) fun commands ↦
    Twin.bind (twins.handleAll m.files commands) fun _ ↦ twins.refresh m.now

theorem closing (twins : Twins excused alike) :
    Twin excused alike (Host.closing : HostM C Bool) (Host.closing : HostM D Bool) := by
  refine Twin.getDesk_bind fun desk ↦ ?_
  by_cases hq : desk.quit = true
  · rw [if_pos hq, if_pos hq]
    exact Twin.bind (Twin.onStage twins.stop) fun _ ↦ Twin.pure _
  · rw [if_neg hq, if_neg hq]
    exact Twin.pure _

theorem mainLoop (twins : Twins excused alike) (moments : List Moment) :
    Twin excused alike (Host.mainLoop moments : HostM C Bool)
      (Host.mainLoop moments : HostM D Bool) := by
  induction moments with
  | nil => exact twins.closing
  | cons m moments ih =>
    refine Twin.bind twins.closing fun quit ↦ ?_
    cases quit with
    | true => exact Twin.pure _
    | false => exact Twin.bind (twins.tick m) fun _ ↦ ih

theorem serve (twins : Twins excused alike) (r : Request) :
    Twin excused alike (Host.serve r : HostM C Bool) (Host.serve r : HostM D Bool) := by
  cases r with
  | tick m => exact Twin.bind (twins.tick m) fun _ ↦ Twin.pure _
  | handle files command => exact Twin.bind (twins.handle files command) fun _ ↦ Twin.pure _
  | mainLoop moments => exact twins.mainLoop moments

theorem requests (twins : Twins excused alike) (requests : List Request) {h : Host C}
    {h' : Host D} (ha : Alike alike h h')
    (hx : ∀ r ∈ outcomes requests h, ¬Excused excused r)
    (hy : ∀ r ∈ outcomes requests h', ¬Excused excused r) :
    outcomes requests h = outcomes requests h' ∧
      Alike alike (afterAll requests h) (afterAll requests h') := by
  induction requests generalizing h h' with
  | nil => exact ⟨rfl, ha⟩
  | cons r rs ih =>
    rcases twins.serve r h h' ha with ⟨ho, hafter⟩ | he | he
    · obtain ⟨hos, hall⟩ := ih hafter (fun r hr ↦ hx r (List.mem_cons_of_mem _ hr))
        (fun r hr ↦ hy r (List.mem_cons_of_mem _ hr))
      refine ⟨?_, hall⟩
      rw [outcomes, outcomes, ho, hos]
    · exact absurd he (hx _ List.mem_cons_self)
    · exact absurd he (hy _ List.mem_cons_self)

theorem start (twins : Twins excused alike) {c : C} {d : D}
    (hs : alike ⟨c, true, none⟩ ⟨d, true, none⟩) (config : Config) (m : Moment) :
    (∃ e, Host.start config c m = .error e ∧ Host.start config d m = .error e) ∨
      ∃ h h', Host.start config c m = .ok h ∧ Host.start config d m = .ok h' ∧
        Alike alike h h' := by
  have ha : Alike alike (initial config c m) (initial config d m) := ⟨rfl, rfl, hs⟩
  rw [start_eq, start_eq]
  dsimp only
  by_cases he : (initial config c m).desk.library.isEmpty = true
  · rw [if_pos he, if_pos (show (initial config d m).desk.library.isEmpty = true from he)]
    exact .inr ⟨_, _, rfl, rfl, twins.overlaid ⟨rfl, rfl, twins.report _ _ _ hs⟩⟩
  · rw [if_neg he, if_neg (show ¬(initial config d m).desk.library.isEmpty = true from he)]
    rcases twins.loadCurrent (fun _ ↦ False) m.files _ _ ha with ⟨ho, hafter⟩ | ⟨_, _, he⟩ |
      ⟨_, _, he⟩
    · rw [ho]
      cases outcome (Host.loadCurrent m.files) (initial config d m) with
      | ok _ => exact .inr ⟨_, _, rfl, rfl, twins.overlaid hafter⟩
      | error e => exact .inl ⟨e, rfl, rfl⟩
    · exact he.elim
    · exact he.elim

end Twins

end Host

end CopyJump
