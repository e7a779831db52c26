import Gemacast.Core.Machine
import Gemacast.Core.Table

/-!
# Play and pause

A call that pauses or resumes stores the intent of the user, sends a command to the worker
that owns the output stream, waits for the answer and puts the old intent back when the
command did not go through. The worker takes the commands in the order of the queue, starts
and pauses the stream as they ask, and ends when the stream fails. Calls and worker are
interleaved step by step.
-/

namespace Gemacast.Player

open Gemacast.Core

/-- The name of one pause or resume. -/
abbrev CallId := ℕ

/-- What the worker is told; a user command carries the call that waits for its answer. -/
inductive PlaybackCommand
  /-- The user wants to play, or to pause. -/
  | setUserPlaying (playing : Bool) (response : CallId)
  /-- The source went idle, or woke up. -/
  | setSourceIdle (idle : Bool)
  /-- The session ends. -/
  | shutdown
  deriving DecidableEq

/-- Where a call stands. -/
inductive CallPhase
  /-- The intent is stored, the command is not yet sent. -/
  | swapped
  /-- The command could not be sent. -/
  | refused
  /-- The command is sent. -/
  | sent
  /-- The answer is there; a failure, or an answer that never comes, is `false`. -/
  | answered (ok : Bool)
  deriving DecidableEq

/-- A pause or resume in progress. -/
structure PlaybackCall where
  /-- What the user asks for. -/
  playing : Bool
  /-- The intent stored before. -/
  previous : Bool
  /-- Where the call stands. -/
  phase : CallPhase
  deriving DecidableEq

/-- Where the worker stands. -/
inductive WorkerPhase
  /-- It takes commands. -/
  | running
  /-- It has left its loop. -/
  | stopping
  /-- It is gone, and with it the stream and the queue. -/
  | gone
  deriving DecidableEq

/-- The worker that owns the output stream. -/
structure PlaybackWorker where
  /-- Where it stands. -/
  phase : WorkerPhase
  /-- The intent of the user, as last received. -/
  userWantsPlaying : Bool
  /-- The source is idle, as last received. -/
  sourceIdle : Bool
  /-- The stream was started and not paused since. -/
  streamRunning : Bool
  /-- The intent of the last user command that went through; read by no code. -/
  applied : Bool
  /-- The output callback may render. -/
  renderEnabled : Bool
  /-- The output callback is to start afresh. -/
  resetRequested : Bool
  deriving DecidableEq

namespace PlaybackWorker

/-- The worker before its first command. -/
def new : PlaybackWorker where
  phase := .running
  userWantsPlaying := true
  sourceIdle := false
  streamRunning := true
  applied := true
  renderEnabled := true
  resetRequested := false

/-- The stream is to run. -/
def shouldRun (w : PlaybackWorker) : Bool := w.userWantsPlaying && !w.sourceIdle

/-- Bring the stream to where it is to be; `ok` tells whether the output takes part. -/
def transition (w : PlaybackWorker) (ok : Bool) : PlaybackWorker × Bool :=
  if w.shouldRun && !w.streamRunning then
    let w := { w with resetRequested := true, renderEnabled := true }
    if ok then ({ w with streamRunning := true }, true) else (w, false)
  else if !w.shouldRun && w.streamRunning then
    let w := { w with renderEnabled := false, resetRequested := true }
    if ok then ({ w with streamRunning := false }, true) else (w, false)
  else (w, true)

/-- Leave the loop. -/
def stop (w : PlaybackWorker) : PlaybackWorker :=
  { w with phase := .stopping, renderEnabled := false }

/-- Take a command; the answer tells whether it went through. -/
def take (w : PlaybackWorker) (ok : Bool) : PlaybackCommand → PlaybackWorker × Bool
  | .setUserPlaying playing _ =>
    match transition { w with userWantsPlaying := playing } ok with
    | (w, true) => ({ w with applied := playing }, true)
    | (w, false) => (w.stop, false)
  | .setSourceIdle idle =>
    match transition { w with sourceIdle := idle } ok with
    | (w, true) => (w, true)
    | (w, false) => (w.stop, false)
  | .shutdown => (w.stop, true)

end PlaybackWorker

/-- The stored intent, the calls in progress, the queue and the worker. -/
structure Playback where
  /-- The stored intent of the user. -/
  userWantsPlaying : Bool
  /-- The calls in progress. -/
  calls : Table CallId PlaybackCall
  /-- The commands sent and not yet taken. -/
  queue : List PlaybackCommand
  /-- The worker. -/
  worker : PlaybackWorker
  /-- The source is idle, as the receiver last told. -/
  sourceIdle : Bool

namespace Playback

/-- One step of a call, of the receiver or of the worker. -/
inductive Step
  /-- A call begins: the intent is stored and the old one remembered. -/
  | begin (id : CallId) (playing : Bool)
  /-- The call sends its command. -/
  | send (id : CallId)
  /-- The call returns, if the answer is there. -/
  | finish (id : CallId)
  /-- The receiver tells whether the source is idle. -/
  | setSourceIdle (idle : Bool)
  /-- The session tells the worker to end. -/
  | shutdown
  /-- The worker takes the next command; `ok` tells whether the output takes part. -/
  | work (ok : Bool)
  /-- The worker that left its loop goes. -/
  | drop

/-- The player before the first call. -/
def new : Playback := ⟨true, ∅, [], .new, false⟩

/-- Put a command into the queue, unless nobody will take it. -/
def push (s : Playback) (command : PlaybackCommand) : Playback :=
  if s.worker.phase = .gone then s else { s with queue := s.queue ++ [command] }

/-- Note where a call stands. -/
def move (s : Playback) (id : CallId) (call : PlaybackCall) (phase : CallPhase) : Playback :=
  { s with calls := s.calls.insert id { call with phase } }

/-- Store the intent and remember the old one. -/
def swap (s : Playback) (id : CallId) (playing : Bool) : Playback :=
  { s with
    userWantsPlaying := playing
    calls := s.calls.insert id ⟨playing, s.userWantsPlaying, .swapped⟩ }

/-- Send the command of a call. -/
def sendCommand (s : Playback) (id : CallId) (call : PlaybackCall) : Playback :=
  if s.worker.phase = .gone then s.move id call .refused
  else (s.move id call .sent).push (.setUserPlaying call.playing id)

/-- Return from a call; without success the old intent is stored again. -/
def finishCall (s : Playback) (id : CallId) (call : PlaybackCall) : Playback :=
  match call.phase with
  | .swapped => s
  | .sent => s
  | .answered true => { s with calls := s.calls.erase id }
  | .answered false | .refused =>
    { s with userWantsPlaying := call.previous, calls := s.calls.erase id }

/-- Answer the call a command belongs to. -/
def respond (s : Playback) (ok : Bool) : PlaybackCommand → Playback
  | .setUserPlaying _ id =>
    match s.calls.lookup id with
    | some call => if call.phase = .sent then s.move id call (.answered ok) else s
    | none => s
  | _ => s

/-- The worker takes the next command. -/
def takeNext (s : Playback) (ok : Bool) : Playback :=
  match s.queue with
  | [] => s
  | command :: queue =>
    match s.worker.take ok command with
    | (worker, through) => respond { s with queue, worker } through command

/-- The queue goes with the worker: the commands in it are answered no more. -/
def dropWorker (s : Playback) : Playback :=
  { s.queue.foldl (fun s command => s.respond false command) s with
    queue := []
    worker := { s.worker with phase := .gone } }

/-- One step; a step that is not due changes nothing. -/
def step (s : Playback) : Step → Playback
  | .begin id playing =>
    match s.calls.lookup id with
    | some _ => s
    | none => s.swap id playing
  | .send id =>
    match s.calls.lookup id with
    | some call => if call.phase = .swapped then s.sendCommand id call else s
    | none => s
  | .finish id =>
    match s.calls.lookup id with
    | some call => s.finishCall id call
    | none => s
  | .setSourceIdle idle => { s.push (.setSourceIdle idle) with sourceIdle := idle }
  | .shutdown => s.push .shutdown
  | .work ok => if s.worker.phase = .running then s.takeNext ok else s
  | .drop => if s.worker.phase = .stopping then s.dropWorker else s

/-- The player as a machine. -/
def machine : Machine Playback Step Unit where
  init := new
  step s i := (s.step i, ())

/-- The output stream runs. -/
def StreamRuns (s : Playback) : Prop :=
  s.worker.phase ≠ .gone ∧ s.worker.streamRunning = true

/-- All calls have returned, the queue is drained and the worker is at rest. -/
def Quiescent (s : Playback) : Prop :=
  (∀ id, s.calls.lookup id = none) ∧ s.queue = [] ∧ s.worker.phase ≠ .stopping

/-- The stored intent is the one the worker last applied, and the stream runs exactly when the
user wants it and the source is not idle. -/
def Agrees (s : Playback) : Prop :=
  s.userWantsPlaying = s.worker.applied ∧
    (s.StreamRuns ↔ s.userWantsPlaying = true ∧ s.sourceIdle = false)

/-! ### What a command asks for -/

/-- The intent of the user after a command. -/
def intentAfter (playing : Bool) : PlaybackCommand → Bool
  | .setUserPlaying playing _ => playing
  | _ => playing

/-- The source is idle after a command. -/
def idleAfter (idle : Bool) : PlaybackCommand → Bool
  | .setSourceIdle idle => idle
  | _ => idle

/-- The call that waits for the answer to a command. -/
def callerOf : PlaybackCommand → Option CallId
  | .setUserPlaying _ id => some id
  | _ => none

/-- Commands without a caller leave the intent alone. -/
theorem foldl_intentAfter {queue : List PlaybackCommand} (h : queue.filterMap callerOf = [])
    (playing : Bool) : queue.foldl intentAfter playing = playing := by
  induction queue with
  | nil => rfl
  | cons command queue ih =>
    cases command with
    | setUserPlaying playing id => cases h
    | setSourceIdle idle => exact ih h
    | shutdown => exact ih h

end Playback

namespace PlaybackWorker

variable {w : PlaybackWorker}

/-- A transition leaves the rest alone; one that succeeds leaves the stream as it should be. -/
theorem transition_spec (w : PlaybackWorker) (ok : Bool) :
    (w.transition ok).1.phase = w.phase ∧
      (w.transition ok).1.userWantsPlaying = w.userWantsPlaying ∧
      (w.transition ok).1.sourceIdle = w.sourceIdle ∧ (w.transition ok).1.applied = w.applied ∧
      ((w.transition ok).2 = true → (w.transition ok).1.streamRunning = w.shouldRun) := by
  unfold transition
  by_cases hrun : w.shouldRun = true <;> by_cases hstream : w.streamRunning = true <;>
    cases ok <;> simp [hrun, hstream]

/-- What the next command does to a running worker. -/
inductive Takes (w : PlaybackWorker) (command : PlaybackCommand) : PlaybackWorker × Bool → Prop
  /-- The command goes through. -/
  | through {w' : PlaybackWorker} (hphase : w'.phase = .running)
      (hstream : w'.streamRunning = w'.shouldRun)
      (hintent : w'.userWantsPlaying = Playback.intentAfter w.userWantsPlaying command)
      (hidle : w'.sourceIdle = Playback.idleAfter w.sourceIdle command)
      (happlied : w'.applied = Playback.intentAfter w.applied command) : Takes w command (w', true)
  /-- The worker leaves its loop. -/
  | stops {w' : PlaybackWorker} {through : Bool} (hphase : w'.phase = .stopping)
      (happlied : w'.applied = w.applied)
      (hthrough : through = true → Playback.callerOf command = none) :
      Takes w command (w', through)

theorem take_takes (h : w.phase = .running) (ok : Bool) (command : PlaybackCommand) :
    w.Takes command (w.take ok command) := by
  cases command with
  | setUserPlaying playing id =>
    obtain ⟨hphase, hintent, hidle, happlied, hstream⟩ :=
      transition_spec { w with userWantsPlaying := playing } ok
    rw [take]
    generalize transition { w with userWantsPlaying := playing } ok = answer
      at hphase hintent hidle happlied hstream ⊢
    obtain ⟨w', _ | _⟩ := answer
    · exact .stops rfl happlied nofun
    · refine .through (hphase.trans h) ((hstream rfl).trans ?_) hintent hidle rfl
      rw [shouldRun, shouldRun, ← hintent, ← hidle]
  | setSourceIdle idle =>
    obtain ⟨hphase, hintent, hidle, happlied, hstream⟩ :=
      transition_spec { w with sourceIdle := idle } ok
    rw [take]
    generalize transition { w with sourceIdle := idle } ok = answer
      at hphase hintent hidle happlied hstream ⊢
    obtain ⟨w', _ | _⟩ := answer
    · exact .stops rfl happlied nofun
    · refine .through (hphase.trans h) ((hstream rfl).trans ?_) hintent hidle happlied
      rw [shouldRun, shouldRun, ← hintent, ← hidle]
  | shutdown => exact .stops rfl rfl fun _ => rfl

end PlaybackWorker

end Gemacast.Player
