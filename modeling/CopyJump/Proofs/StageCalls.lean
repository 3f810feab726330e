import CopyJump.Proofs.HostParts

namespace CopyJump.Stage

variable {C : Type}

def calls (s : Stage (Traced C)) : List Call := s.console.calls.toList

variable [Console C] (s : Stage (Traced C))

@[simp] theorem calls_takeCommands :
    s.takeCommands.2.calls = s.calls ++ [.take (Console.takeCommands s.console.inner).1] :=
  Array.toList_push

theorem poll_fst : s.poll.1 = (Console.poll s.console.inner).1.mapError .unavailable := rfl

@[simp] theorem calls_poll : s.poll.2.calls = s.calls ++ [.poll (Console.poll s.console.inner).1] :=
  Array.toList_push

@[simp] theorem calls_report (m : Message) : (s.report m).calls = s.calls ++ [.report m] :=
  Array.toList_push

@[simp] theorem calls_setOverlay (lines : List String) :
    (s.setOverlay lines).calls = s.calls ++ [.overlay lines] :=
  Array.toList_push

@[simp] theorem calls_redraw : s.redraw.2.calls =
    s.calls ++ [.draw (s.lastVideo.getD .blank)
      (Console.draw s.console.inner (s.lastVideo.getD .blank)).1] :=
  Array.toList_push

theorem stopSound_fst : s.stopSound.1 = (Console.stop s.console.inner).1.mapError .sound := rfl

@[simp] theorem calls_stopSound :
    s.stopSound.2.calls = s.calls ++ [.stop (Console.stop s.console.inner).1] :=
  Array.toList_push

theorem play_console (frame : AudioFrame) :
    Console.play s.console frame =
      ((Console.play s.console.inner frame).1, ⟨(Console.play s.console.inner frame).2,
        s.console.calls.push (.play frame (Console.play s.console.inner frame).1)⟩) := rfl

/-- The calls that the sound of a frame makes: none once the speaker has failed, and a warning when
it does. -/
def soundCalls (frame : AudioFrame) : List Call :=
  if s.soundOk then
    match (Console.play s.console.inner frame).1 with
    | .ok () => [.play frame (.ok ())]
    | .error reason => [.play frame (.error reason), .report (.soundDisabled reason)]
  else []

@[simp] theorem calls_takeAudio (frame : AudioFrame) :
    (s.takeAudio frame).2.calls = s.calls ++ s.soundCalls frame := by
  unfold takeAudio soundCalls
  rw [play_console]
  by_cases hok : s.soundOk = true
  · rw [if_pos hok, if_pos hok]
    rcases Console.play s.console.inner frame with ⟨reason | _, inner⟩
    · simp only [calls, Console.report, Array.toList_push, List.append_assoc, List.cons_append,
        List.nil_append]
    · simp only [calls, Array.toList_push]
  · rw [if_neg hok, if_neg hok, List.append_nil]

theorem takeVideo_fst (frame : VideoFrame) :
    (s.takeVideo frame).1 = (Console.draw s.console.inner frame).1.mapError .unavailable := by
  have hdraw : (Console.draw s.console frame).1 = (Console.draw s.console.inner frame).1 := rfl
  rw [← hdraw, takeVideo]
  rcases Console.draw s.console frame with ⟨_ | _, _⟩ <;> rfl

@[simp] theorem calls_takeVideo (frame : VideoFrame) :
    (s.takeVideo frame).2.calls =
      s.calls ++ [.draw frame (Console.draw s.console.inner frame).1] := by
  have hdraw : (Console.draw s.console frame).2.calls.toList =
      s.calls ++ [.draw frame (Console.draw s.console.inner frame).1] := Array.toList_push
  rw [← hdraw, takeVideo]
  rcases Console.draw s.console frame with ⟨_ | _, _⟩ <;> rfl

theorem present_fst (frames : AudioFrame × VideoFrame) :
    (s.present frames).1 =
      (Console.draw (s.takeAudio frames.1).2.console.inner frames.2).1.mapError .unavailable :=
  takeVideo_fst _ _

@[simp] theorem calls_present (frames : AudioFrame × VideoFrame) :
    (s.present frames).2.calls = s.calls ++ s.soundCalls frames.1 ++
      [.draw frames.2 (Console.draw (s.takeAudio frames.1).2.console.inner frames.2).1] := by
  rw [present, calls_takeVideo, calls_takeAudio]

end CopyJump.Stage
