import CopyJump.Host

namespace CopyJump

inductive Request
  | tick (m : Moment)
  | handle (files : FileTree) (command : HostCommand)
  | mainLoop (moments : List Moment)

def Request.files : Request → List FileTree
  | .tick m => [m.files]
  | .handle files _ => [files]
  | .mainLoop moments => moments.map (·.files)

namespace Host

variable {C α β : Type}

def outcome (x : HostM C α) (h : Host C) : Except Error α :=
  match x h with
  | .ok a _ => .ok a
  | .error e _ => .error e

/-- The host after something was done, with or without an error. -/
def after (x : HostM C α) (h : Host C) : Host C :=
  match x h with
  | .ok _ h => h
  | .error _ h => h

def error? (result : Except Error α) : Option Error :=
  match result with
  | .ok _ => none
  | .error e => some e

def fault? (x : HostM C α) (h : Host C) : Option Error := error? (outcome x h)

theorem eq_ok_of_outcome {x : HostM C α} {h : Host C} {a : α} (ho : outcome x h = .ok a) :
    x h = .ok a (after x h) := by
  simp only [outcome, after] at ho ⊢
  cases hx : x h <;> rw [hx] at ho <;> cases ho
  rfl

theorem bind_eq_of_ok {x : HostM C α} {h h' : Host C} {a : α} (hx : x h = .ok a h')
    (f : α → HostM C β) : (x >>= f) h = f a h' := by
  simp only [bind, EStateM.bind, hx]

theorem bind_eq_of_error {x : HostM C α} {h h' : Host C} {e : Error} (hx : x h = .error e h')
    (f : α → HostM C β) : (x >>= f) h = .error e h' := by
  simp only [bind, EStateM.bind, hx]

theorem tryCatch_eq_of_ok {x : HostM C α} {h h' : Host C} {a : α} (hx : x h = .ok a h')
    (f : Error → HostM C α) : tryCatch x f h = .ok a h' := by
  show EStateM.tryCatch x f h = _
  delta EStateM.tryCatch
  rw [hx]

theorem tryCatch_eq_of_error {x : HostM C α} {h h' : Host C} {e : Error} (hx : x h = .error e h')
    (f : Error → HostM C α) : tryCatch x f h = f e h' := by
  show EStateM.tryCatch x f h = _
  delta EStateM.tryCatch
  rw [hx]
  rfl

theorem outcome_bind (x : HostM C α) (f : α → HostM C β) (h : Host C) :
    outcome (x >>= f) h =
      match outcome x h with
      | .ok a => outcome (f a) (after x h)
      | .error e => .error e := by
  cases hx : x h with
  | ok a h' => simp only [outcome, after, bind_eq_of_ok hx, hx]
  | error e h' => simp only [outcome, bind_eq_of_error hx, hx]

theorem after_bind (x : HostM C α) (f : α → HostM C β) (h : Host C) :
    after (x >>= f) h =
      match outcome x h with
      | .ok a => after (f a) (after x h)
      | .error _ => after x h := by
  cases hx : x h with
  | ok a h' => simp only [outcome, after, bind_eq_of_ok hx, hx]
  | error e h' => simp only [outcome, after, bind_eq_of_error hx, hx]

theorem outcome_tryCatch (x : HostM C α) (f : Error → HostM C α) (h : Host C) :
    outcome (tryCatch x f) h =
      match outcome x h with
      | .ok a => .ok a
      | .error e => outcome (f e) (after x h) := by
  cases hx : x h with
  | ok a h' => simp only [outcome, tryCatch_eq_of_ok hx, hx]
  | error e h' => simp only [outcome, after, tryCatch_eq_of_error hx, hx]

theorem after_tryCatch (x : HostM C α) (f : Error → HostM C α) (h : Host C) :
    after (tryCatch x f) h =
      match outcome x h with
      | .ok _ => after x h
      | .error e => after (f e) (after x h) := by
  cases hx : x h with
  | ok a h' => simp only [outcome, after, tryCatch_eq_of_ok hx, hx]
  | error e h' => simp only [outcome, after, tryCatch_eq_of_error hx, hx]

variable [Console C]

/-- Serves a request. Tells if it was a loop that was told to quit. -/
def serve : Request → HostM C Bool
  | .tick m => do
    tick m
    return false
  | .handle files command => do
    handle files command
    return false
  | .mainLoop moments => mainLoop moments

def afterAll (requests : List Request) (h : Host C) : Host C :=
  requests.foldl (fun h r ↦ after (serve r) h) h

def outcomes : List Request → Host C → List (Except Error Bool)
  | [], _ => []
  | r :: rs, h => outcome (serve r) h :: outcomes rs (after (serve r) h)

theorem afterAll_cons (r : Request) (requests : List Request) (h : Host C) :
    afterAll (r :: requests) h = afterAll requests (after (serve r) h) := rfl

theorem afterAll_concat (requests : List Request) (r : Request) (h : Host C) :
    afterAll (requests ++ [r]) h = after (serve r) (afterAll requests h) := by
  rw [afterAll, List.foldl_append]
  rfl

theorem serve_tick (m : Moment) :
    serve (C := C) (.tick m) = tick m >>= fun _ ↦ pure false := rfl

theorem serve_handle (files : FileTree) (command : HostCommand) :
    serve (C := C) (.handle files command) = handle files command >>= fun _ ↦ pure false := rfl

theorem after_serve_tick (m : Moment) (h : Host C) :
    after (serve (.tick m)) h = after (tick m) h := by
  rw [serve_tick, after_bind]
  cases outcome (tick m) h <;> rfl

theorem after_serve_handle (files : FileTree) (command : HostCommand) (h : Host C) :
    after (serve (.handle files command)) h = after (handle files command) h := by
  rw [serve_handle, after_bind]
  cases outcome (handle files command) h <;> rfl

def reload (files : FileTree) : HostM C Unit :=
  tryCatch (loadCurrent files) fun e ↦ notify (.notLoaded e)

/-- What a tick does once the commands are handled. -/
def refresh (now : Time) : HostM C Unit := do
  unless (← getDesk).quit do
    updateOverlay
    if (← getDesk).paused then onStage Stage.redraw
    else
      runFrame
      modifyDesk fun d ↦ { d with counter := d.counter.tick now }

theorem tick_eq (m : Moment) : tick (C := C) m =
    onStage Stage.takeCommands >>= fun commands ↦ handleAll m.files commands >>= fun _ ↦
      refresh m.now := rfl

/-- A relation that holds of the host before and after each of the things that requests are made
of, given the error that the thing ends with. `seen` are the files that may be looked at. -/
structure Law (seen : FileTree → Prop) (P : Host C → Option Error → Host C → Prop) : Prop where
  refl (h) : P h none h
  trans {h h' h'' e} : P h none h' → P h' e h'' → P h e h''
  take (h) : P h (fault? (onStage Stage.takeCommands) h) (after (onStage Stage.takeCommands) h)
  move (h) (f : Library → Library) : f = Library.next ∨ f = Library.previous →
    P h none { h with desk := { h.desk with library := f h.desk.library } }
  reload (h) (files) : seen files → P h (fault? (reload files) h) (after (reload files) h)
  frameRate (h) (rate) : P h (fault? (setFrameRate rate) h) (after (setFrameRate rate) h)
  pause (h) : P h (fault? togglePause h) (after togglePause h)
  help (h) : P h none { h with desk := { h.desk with showHelp := !h.desk.showHelp } }
  info (h) : P h none { h with desk := { h.desk with showInfo := !h.desk.showInfo } }
  quit (h) : P h none { h with desk := { h.desk with quit := true } }
  overlay (h) : h.desk.quit = false → P h none { h with stage := h.stage.setOverlay h.desk.overlay }
  redraw (h) : h.desk.quit = false → h.desk.paused = true →
    P h (fault? (onStage Stage.redraw) h) (after (onStage Stage.redraw) h)
  frame (h) : h.desk.quit = false → h.desk.paused = false →
    P h (fault? runFrame h) (after runFrame h)
  count (h) (now) : P h none { h with desk := { h.desk with counter := h.desk.counter.tick now } }
  stop (h) : h.desk.quit = true →
    P h (fault? (onStage Stage.stopSound) h) (after (onStage Stage.stopSound) h)

namespace Law

variable {seen : FileTree → Prop} {P : Host C → Option Error → Host C → Prop}

theorem bind (law : Law seen P) {x : HostM C α} {f : α → HostM C β} {h : Host C}
    (hx : P h (fault? x h) (after x h))
    (hf : ∀ a, outcome x h = .ok a →
      P (after x h) (fault? (f a) (after x h)) (after (f a) (after x h))) :
    P h (fault? (x >>= f) h) (after (x >>= f) h) := by
  simp only [fault?, error?, outcome_bind, after_bind] at hx hf ⊢
  cases ho : outcome x h with
  | ok a =>
    simp only [ho] at hx ⊢
    exact law.trans hx (hf a ho)
  | error e => simpa only [ho] using hx

theorem pure (law : Law seen P) (a : α) (h : Host C) :
    P h (fault? (Pure.pure a : HostM C α) h) (after (Pure.pure a : HostM C α) h) := law.refl h

theorem getDesk_bind (law : Law seen P) {f : Desk → HostM C β} {h : Host C}
    (hf : P h (fault? (f h.desk) h) (after (f h.desk) h)) :
    P h (fault? (getDesk >>= f) h) (after (getDesk >>= f) h) :=
  law.bind (law.refl h) fun a ha ↦ by
    cases ha
    exact hf

theorem browse (law : Law seen P) {files : FileTree} (hs : seen files) {f : Library → Library}
    (hf : f = Library.next ∨ f = Library.previous) (h : Host C) :
    P h (fault? (browse files f) h) (after (Host.browse files f) h) := by
  refine law.getDesk_bind ?_
  by_cases he : h.desk.library.isEmpty = true
  · rw [if_pos he]
    exact law.pure _ h
  · rw [if_neg he]
    exact law.bind (law.move h f hf) fun _ _ ↦ law.reload _ files hs

theorem handle (law : Law seen P) {files : FileTree} (hs : seen files) (command : HostCommand)
    (h : Host C) : P h (fault? (handle files command) h) (after (Host.handle files command) h) := by
  cases command with
  | nextRom => exact law.browse hs (.inl rfl) h
  | previousRom => exact law.browse hs (.inr rfl) h
  | togglePause => exact law.pause h
  | fasterFrameRate => exact law.getDesk_bind (law.frameRate h _)
  | slowerFrameRate => exact law.getDesk_bind (law.frameRate h _)
  | resetFrameRate => exact law.frameRate h _
  | toggleHelp => exact law.help h
  | toggleInfo => exact law.info h
  | quit => exact law.quit h

theorem handleAll (law : Law seen P) {files : FileTree} (hs : seen files)
    (commands : List HostCommand) (h : Host C) :
    P h (fault? (handleAll files commands) h) (after (Host.handleAll files commands) h) := by
  induction commands generalizing h with
  | nil => exact law.pure _ h
  | cons command commands ih => exact law.bind (law.handle hs command h) fun _ _ ↦ ih _

theorem refresh (law : Law seen P) (now : Time) (h : Host C) :
    P h (fault? (refresh now) h) (after (Host.refresh now) h) := by
  refine law.getDesk_bind ?_
  by_cases hq : h.desk.quit = true
  · rw [if_pos hq]
    exact law.pure _ h
  have hq' : h.desk.quit = false := Bool.eq_false_iff.mpr hq
  rw [if_neg hq]
  refine law.bind (law.overlay h hq') fun _ _ ↦ law.getDesk_bind ?_
  by_cases hp : h.desk.paused = true
  · rw [if_pos (show (after updateOverlay h).desk.paused = true from hp)]
    exact law.redraw _ hq' hp
  · rw [if_neg (show ¬(after updateOverlay h).desk.paused = true from hp)]
    exact law.bind (law.frame _ hq' (Bool.eq_false_iff.mpr hp)) fun _ _ ↦ law.count _ now

theorem tick (law : Law seen P) (m : Moment) (hs : seen m.files) (h : Host C) :
    P h (fault? (tick m) h) (after (Host.tick m) h) := by
  rw [tick_eq]
  exact law.bind (law.take h) fun commands _ ↦
    law.bind (law.handleAll hs commands _) fun _ _ ↦ law.refresh m.now _

theorem closing (law : Law seen P) (h : Host C) :
    P h (fault? closing h) (after Host.closing h) := by
  refine law.getDesk_bind ?_
  by_cases hq : h.desk.quit = true
  · rw [if_pos hq]
    exact law.bind (law.stop h hq) fun _ _ ↦ law.pure _ _
  · rw [if_neg hq]
    exact law.pure _ h

theorem mainLoop (law : Law seen P) (moments : List Moment) (hs : ∀ m ∈ moments, seen m.files)
    (h : Host C) : P h (fault? (mainLoop moments) h) (after (Host.mainLoop moments) h) := by
  induction moments generalizing h with
  | nil => exact law.closing h
  | cons m moments ih =>
    refine law.bind (law.closing h) fun quit _ ↦ ?_
    cases quit with
    | true => exact law.pure _ _
    | false =>
      exact law.bind (law.tick m (hs m List.mem_cons_self) _) fun _ _ ↦
        ih (fun m hm ↦ hs m (List.mem_cons_of_mem _ hm)) _

theorem serve (law : Law seen P) (r : Request) (hs : ∀ files ∈ r.files, seen files) (h : Host C) :
    P h (fault? (serve r) h) (after (Host.serve r) h) := by
  cases r with
  | tick m => exact law.bind (law.tick m (hs _ List.mem_cons_self) h) fun _ _ ↦ law.pure _ _
  | handle files command =>
    exact law.bind (law.handle (hs _ List.mem_cons_self) command h) fun _ _ ↦ law.pure _ _
  | mainLoop moments =>
    exact law.mainLoop moments (fun m hm ↦ hs _ (List.mem_map_of_mem hm)) h

end Law

/-- What every part of a request keeps holds after any requests. -/
theorem afterAll_of_law {seen : FileTree → Prop} {I : Host C → Prop}
    (law : Law seen fun h _ h' ↦ I h → I h') (requests : List Request)
    (hs : ∀ r ∈ requests, ∀ files ∈ r.files, seen files) {h : Host C} (hi : I h) :
    I (afterAll requests h) := by
  induction requests generalizing h with
  | nil => exact hi
  | cons r rs ih =>
    exact ih (fun r hr ↦ hs r (List.mem_cons_of_mem _ hr))
      (law.serve r (hs r List.mem_cons_self) h hi)

end Host

end CopyJump
