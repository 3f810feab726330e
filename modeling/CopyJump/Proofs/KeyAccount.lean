import CopyJump.Keyboard
import CopyJump.Proofs.HeldKeys

namespace CopyJump

def Arrival.command? : Arrival → Option HostCommand
  | .key stroke =>
    match stroke.action with
    | .host command => some command
    | _ => none
  | _ => none

def Arrival.bit? : Arrival → Option Nat
  | .key stroke =>
    match stroke.action with
    | .machine bit => some bit
    | _ => none
  | _ => none

def commandsIn (read : List Arrival) : List HostCommand := read.filterMap Arrival.command?

theorem commandsIn_append (read read' : List Arrival) :
    commandsIn (read ++ read') = commandsIn read ++ commandsIn read' :=
  List.filterMap_append

def KeyLatch.pressAll (l : KeyLatch) (read : List Arrival) : KeyLatch :=
  (read.filterMap Arrival.bit?).foldl press l

theorem KeyLatch.pressAll_append (l : KeyLatch) (read read' : List Arrival) :
    l.pressAll (read ++ read') = (l.pressAll read).pressAll read' := by
  simp [pressAll]

theorem bit_lt_of_charAction {c : Char} {bit : Nat} (h : Key.charAction c = .machine bit) :
    bit < 16 := by
  unfold Key.charAction at h
  split at h
  case isTrue hdigit =>
    cases h
    have hle : c.toNat ≤ 57 := hdigit.2
    have hzero : '0'.toNat = 48 := rfl
    omega
  case isFalse =>
    split at h
    case isTrue hletter =>
      cases h
      have hle : c.toNat ≤ 102 := hletter.2
      have ha : 'a'.toNat = 97 := rfl
      omega
    case isFalse => split at h <;> cases h

theorem bit_lt_of_keyAction {key : Key} {bit : Nat} (h : key.action = .machine bit) : bit < 16 := by
  cases key with
  | char c => exact bit_lt_of_charAction h
  | _ => cases h

theorem bit_lt_of_action {stroke : Stroke} {bit : Nat} (h : stroke.action = .machine bit) :
    bit < 16 := by
  unfold Stroke.action at h
  split at h
  case isTrue => cases h
  case isFalse => exact bit_lt_of_keyAction h

theorem KeyLatch.testBit_mask_pressAll (l : KeyLatch) {read : List Arrival} {stroke : Stroke}
    {bit : Nat} (hread : .key stroke ∈ read) (haction : stroke.action = .machine bit) :
    (l.pressAll read).mask.toNat.testBit bit = true := by
  have hbit : (Arrival.key stroke).bit? = some bit := by simp only [Arrival.bit?, haction]
  have hpressed : bit ∈ read.filterMap Arrival.bit? := List.mem_filterMap.mpr ⟨_, hread, hbit⟩
  rw [testBit_mask _ (bit_lt_of_action haction)]
  exact decide_eq_true (pollsLeft_foldl_press_pos _ (Or.inl hpressed))

namespace Keyboard

variable {k k' k'' : Keyboard} {read read' : List Arrival}

/-- What reading does to a keyboard: the arrivals read are the first of those that wait, and each of
them has its effect. -/
structure Drained (k : Keyboard) (read : List Arrival) (k' : Keyboard) : Prop where
  arrivals_eq : k.arrivals = read ++ k'.arrivals
  commands_eq : k'.commands = k.commands ++ commandsIn read
  latch_eq : k'.latch = k.latch.pressAll read

theorem drained_handle (k : Keyboard) (stroke : Stroke) (rest : List Arrival) :
    Drained { k with arrivals := .key stroke :: rest } [.key stroke]
      { k.handle stroke with arrivals := rest } where
  arrivals_eq := rfl
  commands_eq := by
    simp only [handle, commandsIn, List.filterMap_cons, List.filterMap_nil, Arrival.command?]
    cases stroke.action <;> simp
  latch_eq := by
    simp only [handle, KeyLatch.pressAll, List.filterMap_cons, List.filterMap_nil, Arrival.bit?]
    cases stroke.action <;> rfl

theorem Drained.trans (h : Drained k read k') (h' : Drained k' read' k'') :
    Drained k (read ++ read') k'' where
  arrivals_eq := by rw [h.arrivals_eq, h'.arrivals_eq, List.append_assoc]
  commands_eq := by
    rw [h'.commands_eq, h.commands_eq, commandsIn_append, List.append_assoc]
  latch_eq := by rw [h'.latch_eq, h.latch_eq, KeyLatch.pressAll_append]

theorem drained_skip (k : Keyboard) {a : Arrival} (rest : List Arrival)
    (hcommand : a.command? = none) (hbit : a.bit? = none) :
    Drained { k with arrivals := a :: rest } [a] { k with arrivals := rest } where
  arrivals_eq := rfl
  commands_eq := by simp [commandsIn, hcommand]
  latch_eq := by simp [KeyLatch.pressAll, hbit]

theorem readFrom_drained (k : Keyboard) (waiting : List Arrival) :
    ∃ read, Drained { k with arrivals := waiting } read (k.readFrom waiting).2 := by
  -- Reading goes on behind a key or an arrival that is none, and stops behind a report or a fault.
  induction waiting generalizing k with
  | nil => exact ⟨[], rfl, by simp [readFrom, commandsIn], rfl⟩
  | cons a rest ih =>
    cases a with
    | key stroke =>
      obtain ⟨read, hrest⟩ := ih (k.handle stroke)
      exact ⟨.key stroke :: read, (drained_handle k stroke rest).trans hrest⟩
    | other =>
      obtain ⟨read, hrest⟩ := ih k
      exact ⟨.other :: read, (drained_skip k rest rfl rfl).trans hrest⟩
    | report => exact ⟨[.report], drained_skip k rest rfl rfl⟩
    | fault fault => exact ⟨[.fault fault], drained_skip k rest rfl rfl⟩

theorem read_drained (k : Keyboard) : ∃ read, Drained k read k.read.2 :=
  readFrom_drained k k.arrivals

theorem poll_cases (k : Keyboard) :
    ∃ read mid, Drained k read mid ∧ ((∃ fault, k.poll = (.error fault, mid)) ∨
      k.poll = (.ok mid.latch.mask, { mid with latch := mid.latch.poll.2 })) := by
  obtain ⟨read, hread⟩ := k.read_drained
  refine ⟨read, k.read.2, hread, ?_⟩
  rw [poll]
  rcases hresult : k.read with ⟨fault | _, mid⟩
  · exact Or.inl ⟨fault, rfl⟩
  · exact Or.inr rfl

theorem takeCommands_cases (k : Keyboard) :
    ∃ read mid, Drained k read mid ∧ ((∃ fault, k.takeCommands = (.error fault, mid)) ∨
      k.takeCommands = (.ok mid.commands, { mid with commands := [] })) := by
  obtain ⟨read, hread⟩ := k.read_drained
  refine ⟨read, k.read.2, hread, ?_⟩
  rw [takeCommands]
  rcases hresult : k.read with ⟨fault | _, mid⟩
  · exact Or.inl ⟨fault, rfl⟩
  · exact Or.inr rfl

end Keyboard

inductive KeyboardUse
  | arrive (arrivals : List Arrival)
  | poll
  | takeCommands

def KeyboardUse.arrivals : KeyboardUse → List Arrival
  | .arrive arrivals => arrivals
  | _ => []

/-- What came of a use: nothing yet when something arrived, else what was read for it and the
answer. -/
inductive KeyboardEvent
  | arrived
  | polled (read : List Arrival) (result : Except Fault UInt16)
  | taken (read : List Arrival) (result : Except Fault (List HostCommand))

namespace KeyboardEvent

def read : KeyboardEvent → List Arrival
  | .arrived => []
  | .polled read _ => read
  | .taken read _ => read

def batch : KeyboardEvent → List HostCommand
  | .taken _ (.ok commands) => commands
  | _ => []

def mask? : KeyboardEvent → Option UInt16
  | .polled _ (.ok mask) => some mask
  | _ => none

end KeyboardEvent

namespace Keyboard

def consumed (k k' : Keyboard) : List Arrival :=
  k.arrivals.take (k.arrivals.length - k'.arrivals.length)

def use (k : Keyboard) : KeyboardUse → KeyboardEvent × Keyboard
  | .arrive arrivals => (.arrived, k.arrive arrivals)
  | .poll =>
    let (result, k') := k.poll
    (.polled (k.consumed k') result, k')
  | .takeCommands =>
    let (result, k') := k.takeCommands
    (.taken (k.consumed k') result, k')

def useAll (k : Keyboard) : List KeyboardUse → List KeyboardEvent × Keyboard
  | [] => ([], k)
  | u :: uses =>
    let (event, k) := k.use u
    let (events, k) := k.useAll uses
    (event :: events, k)

theorem consumed_eq {k k' : Keyboard} {read : List Arrival}
    (h : k.arrivals = read ++ k'.arrivals) : k.consumed k' = read := by
  simp [consumed, h]

/-- A stretch of use, from the keyboard before it to the one after. Of what was waiting and what
arrived, the first part was read and the rest waits; of the commands that were pending and those
read, the first part was handed over and the rest is pending; and unless a poll answered, all keys
read are held on top of those held before. -/
structure Accounts (k : Keyboard) (uses : List KeyboardUse) (events : List KeyboardEvent)
    (k' : Keyboard) : Prop where
  arrivals_eq : k.arrivals ++ uses.flatMap KeyboardUse.arrivals =
    events.flatMap KeyboardEvent.read ++ k'.arrivals
  commands_eq : k.commands ++ commandsIn (events.flatMap KeyboardEvent.read) =
    events.flatMap KeyboardEvent.batch ++ k'.commands
  latch_eq : (∀ e ∈ events, e.mask? = none) →
    k'.latch = k.latch.pressAll (events.flatMap KeyboardEvent.read)

section Accounts

variable {k k' k'' mid : Keyboard} {u : KeyboardUse} {uses uses' : List KeyboardUse}
  {e : KeyboardEvent} {events events' : List KeyboardEvent}

theorem Accounts.trans (h : Accounts k uses events k') (h' : Accounts k' uses' events' k'') :
    Accounts k (uses ++ uses') (events ++ events') k'' where
  arrivals_eq := by
    rw [List.flatMap_append, List.flatMap_append, ← List.append_assoc, h.arrivals_eq,
      List.append_assoc, h'.arrivals_eq, List.append_assoc]
  commands_eq := by
    rw [List.flatMap_append, List.flatMap_append, commandsIn_append, ← List.append_assoc,
      h.commands_eq, List.append_assoc, h'.commands_eq, List.append_assoc]
  latch_eq := by
    intro hnone
    rw [List.forall_mem_append] at hnone
    rw [h'.latch_eq hnone.2, h.latch_eq hnone.1, List.flatMap_append, KeyLatch.pressAll_append]

theorem Drained.accounts {read : List Arrival} (h : Drained k read mid) (hread : e.read = read)
    (harrivals : u.arrivals = []) (hqueue : k'.arrivals = mid.arrivals)
    (hcommands : mid.commands = e.batch ++ k'.commands)
    (hlatch : e.mask? = none → k'.latch = mid.latch) : Accounts k [u] [e] k' where
  arrivals_eq := by simp [harrivals, hqueue, hread, h.arrivals_eq]
  commands_eq := by simp [← hcommands, hread, h.commands_eq]
  latch_eq := by
    intro hnone
    rw [hlatch (hnone e List.mem_cons_self), h.latch_eq, List.flatMap_singleton, hread]

theorem arrive_accounts (k : Keyboard) (arrivals : List Arrival) :
    Accounts k [.arrive arrivals] [.arrived] (k.arrive arrivals) where
  arrivals_eq := by simp [KeyboardUse.arrivals, KeyboardEvent.read, arrive]
  commands_eq := by simp [KeyboardEvent.read, KeyboardEvent.batch, commandsIn, arrive]
  latch_eq := fun _ ↦ rfl

theorem use_poll_eq {result : Except Fault UInt16} {read : List Arrival}
    (h : k.poll = (result, k')) (hqueue : k.arrivals = read ++ k'.arrivals) :
    k.use .poll = (.polled read result, k') := by
  rw [use, h]
  dsimp only
  rw [consumed_eq hqueue]

theorem use_takeCommands_eq {result : Except Fault (List HostCommand)} {read : List Arrival}
    (h : k.takeCommands = (result, k')) (hqueue : k.arrivals = read ++ k'.arrivals) :
    k.use .takeCommands = (.taken read result, k') := by
  rw [use, h]
  dsimp only
  rw [consumed_eq hqueue]

theorem use_poll (k : Keyboard) :
    ∃ read result k', k.use .poll = (.polled read result, k') ∧
      Accounts k [.poll] [.polled read result] k' ∧
      ∀ mask, result = .ok mask → mask = (k.latch.pressAll read).mask := by
  obtain ⟨read, mid, hread, ⟨fault, hpoll⟩ | hpoll⟩ := k.poll_cases
  · refine ⟨read, .error fault, mid, use_poll_eq hpoll hread.arrivals_eq, ?_, ?_⟩
    · exact hread.accounts rfl rfl rfl rfl fun _ ↦ rfl
    · intro mask hmask
      cases hmask
  · refine ⟨read, _, _, use_poll_eq hpoll hread.arrivals_eq, ?_, ?_⟩
    · refine hread.accounts rfl rfl rfl rfl ?_
      intro hnone
      cases hnone
    · intro mask hmask
      cases hmask
      rw [hread.latch_eq]

theorem use_takeCommands (k : Keyboard) :
    Accounts k [.takeCommands] [(k.use .takeCommands).1] (k.use .takeCommands).2 := by
  obtain ⟨read, mid, hread, ⟨fault, htake⟩ | htake⟩ := k.takeCommands_cases
  · rw [use_takeCommands_eq htake hread.arrivals_eq]
    exact hread.accounts rfl rfl rfl rfl fun _ ↦ rfl
  · rw [use_takeCommands_eq htake hread.arrivals_eq]
    exact hread.accounts rfl rfl rfl (List.append_nil _).symm fun _ ↦ rfl

theorem use_accounts (k : Keyboard) (u : KeyboardUse) :
    Accounts k [u] [(k.use u).1] (k.use u).2 := by
  cases u with
  | arrive arrivals => exact k.arrive_accounts arrivals
  | poll =>
    obtain ⟨read, result, k', hevent, haccounts, -⟩ := k.use_poll
    rw [hevent]
    exact haccounts
  | takeCommands => exact k.use_takeCommands

theorem useAll_accounts (k : Keyboard) (uses : List KeyboardUse) :
    Accounts k uses (k.useAll uses).1 (k.useAll uses).2 := by
  induction uses generalizing k with
  | nil => exact ⟨by simp [useAll], by simp [useAll, commandsIn], fun _ ↦ rfl⟩
  | cons u uses ih => exact (k.use_accounts u).trans (ih (k.use u).2)

end Accounts

theorem useAll_split {k : Keyboard} {uses : List KeyboardUse} {before after : List KeyboardEvent}
    (h : (k.useAll uses).1 = before ++ after) :
    ∃ uses' rest, (k.useAll uses').1 = before ∧ ((k.useAll uses').2.useAll rest).1 = after := by
  induction before generalizing k uses with
  | nil => exact ⟨[], uses, rfl, h⟩
  | cons e before ih =>
    cases uses with
    | nil => cases h
    | cons u uses =>
      obtain ⟨he, hrest⟩ := List.cons.inj h
      obtain ⟨uses', rest, hbefore, hafter⟩ := ih hrest
      refine ⟨u :: uses', rest, ?_, hafter⟩
      rw [← he, ← hbefore]
      rfl

theorem mask_of_polled {k : Keyboard} {uses : List KeyboardUse} {after : List KeyboardEvent}
    {read : List Arrival} {mask : UInt16}
    (h : (k.useAll uses).1 = .polled read (.ok mask) :: after) :
    mask = (k.latch.pressAll read).mask := by
  cases uses with
  | nil => cases h
  | cons u uses =>
    have hfirst : (k.use u).1 = .polled read (.ok mask) := (List.cons.inj h).1
    cases u with
    | arrive arrivals => cases hfirst
    | takeCommands => cases hfirst
    | poll =>
      obtain ⟨read', result, k', hevent, -, hmask⟩ := k.use_poll
      rw [hevent] at hfirst
      cases hfirst
      exact hmask mask rfl

theorem mask_of_useAll {k : Keyboard} {uses : List KeyboardUse}
    {before since after : List KeyboardEvent} {read : List Arrival} {mask : UInt16}
    (h : (k.useAll uses).1 = before ++ since ++ .polled read (.ok mask) :: after)
    (hsince : ∀ e ∈ since, e.mask? = none) :
    ∃ l : KeyLatch, mask = (l.pressAll (since.flatMap KeyboardEvent.read ++ read)).mask := by
  rw [List.append_assoc] at h
  obtain ⟨uses₁, rest₁, -, h₁⟩ := useAll_split h
  obtain ⟨uses₂, rest₂, h₂, h₃⟩ := useAll_split h₁
  have hlatch := (useAll_accounts (k.useAll uses₁).2 uses₂).latch_eq
  rw [h₂] at hlatch
  refine ⟨(k.useAll uses₁).2.latch, ?_⟩
  rw [mask_of_polled h₃, hlatch hsince, KeyLatch.pressAll_append]

/-- Whatever arrives at a new keyboard, and in whatever order it is asked for keys and for commands,
what was read and what waits is what arrived; what the host was handed and what is pending are the
commands read; and a poll that answers reports every key of the machine read since the poll before
it that answered. Control and C are a command and no key. -/
theorem keys_accounted (uses : List KeyboardUse) :
    ∃ events k, ({} : Keyboard).useAll uses = (events, k) ∧
      events.flatMap KeyboardEvent.read ++ k.arrivals = uses.flatMap KeyboardUse.arrivals ∧
      events.flatMap KeyboardEvent.batch ++ k.commands =
        commandsIn (events.flatMap KeyboardEvent.read) ∧
      (∀ before since read mask after,
        events = before ++ since ++ .polled read (.ok mask) :: after →
        (∀ e ∈ since, e.mask? = none) →
        ∀ stroke bit, .key stroke ∈ since.flatMap KeyboardEvent.read ++ read →
          stroke.action = .machine bit → mask.toNat.testBit bit = true) ∧
      ∀ stroke : Stroke, stroke.key = .char 'c' → stroke.control = true →
        commandsIn [.key stroke] = [.quit] ∧ ∀ bit, stroke.action ≠ .machine bit := by
  have haccounts := useAll_accounts {} uses
  refine ⟨_, _, rfl, haccounts.arrivals_eq.symm, haccounts.commands_eq.symm, ?_, ?_⟩
  · intro before since read mask after hevents hsince stroke bit hread haction
    obtain ⟨l, rfl⟩ := mask_of_useAll hevents hsince
    exact l.testBit_mask_pressAll hread haction
  · intro stroke hkey hcontrol
    have haction : stroke.action = .host .quit := if_pos ⟨hkey, hcontrol⟩
    refine ⟨?_, ?_⟩
    · simp [commandsIn, Arrival.command?, haction]
    · intro bit
      simp [haction]

end Keyboard

end CopyJump
