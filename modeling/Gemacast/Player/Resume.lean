import Gemacast.Jitter.Forgetting
import Gemacast.Player.PlayPause
import Gemacast.Player.SourceIdle

/-!
# Pauses and resumptions of the output

The worker pauses and starts the output stream, with two flags for the callback, which it sets
one after the other. The receiver decides on each packet and pushes it later, and the callback
runs at any time in between. From the first store of a pause on, and again from that of a
resumption, what the player and the ring held makes no difference to anything heard later.
-/

namespace Gemacast.Player

open Gemacast.Core Gemacast.Jitter

/-- What the worker of the output does next. -/
inductive WorkerAction
  /-- Receive a command. -/
  | receive
  /-- To start the stream: request a reset. -/
  | startReset
  /-- Then enable rendering. -/
  | startRender
  /-- Then start it. -/
  | startStream
  /-- To pause the stream: disable rendering. -/
  | pauseRender
  /-- Then request a reset. -/
  | pauseReset
  /-- Then pause it. -/
  | pauseStream
  /-- Disable rendering after the stream failed. -/
  | fail
  /-- Disable rendering behind the loop. -/
  | leave
  /-- Nothing any more. -/
  | gone
  deriving DecidableEq

/-- The worker of the output between two of its actions. -/
structure OutputWorker where
  /-- What it does next. -/
  next : WorkerAction
  /-- The intent of the user, as last received. -/
  userWantsPlaying : Bool
  /-- The source is idle, as last received. -/
  sourceIdle : Bool
  /-- The stream was started and not paused since. -/
  streamRunning : Bool
  deriving DecidableEq

namespace OutputWorker

/-- The worker before its first command. -/
def new : OutputWorker := ⟨.receive, true, false, true⟩

/-- Go on to start or to pause the stream, where it is not as it should be. -/
def transition (w : OutputWorker) : OutputWorker :=
  let shouldRun := w.userWantsPlaying && !w.sourceIdle
  if shouldRun && !w.streamRunning then { w with next := .startReset }
  else if !shouldRun && w.streamRunning then { w with next := .pauseRender }
  else w

/-- Take a command. -/
def take (w : OutputWorker) : PlaybackCommand → OutputWorker
  | .setUserPlaying playing _ => { w with userWantsPlaying := playing }.transition
  | .setSourceIdle idle => { w with sourceIdle := idle }.transition
  | .shutdown => { w with next := .leave }

/-- The stream is paused, or about to be: rendering is not enabled until the next start. -/
def Stopped (w : OutputWorker) : Prop :=
  match w.next with
  | .receive => w.streamRunning = false
  | .startRender | .startStream | .pauseRender => False
  | _ => True

/-- A worker that has paused the stream next starts it, or leaves it paused. -/
theorem stopped_take {w : OutputWorker} (hnext : w.next = .receive)
    (h : w.streamRunning = false) (command : PlaybackCommand) : (w.take command).Stopped := by
  have htransition : ∀ w : OutputWorker, w.next = .receive → w.streamRunning = false →
      w.transition.Stopped := by
    intro w hnext h
    unfold transition
    dsimp only
    rw [h, Bool.and_false, if_neg Bool.false_ne_true]
    split
    · trivial
    · unfold Stopped
      rw [hnext]
      exact h
  cases command with
  | setUserPlaying playing response => exact htransition _ hnext h
  | setSourceIdle idle => exact htransition _ hnext h
  | shutdown => trivial

end OutputWorker

/-- Where the receiver stands with a packet. -/
inductive ReceiverPhase
  /-- It waits for the next one. -/
  | waiting
  /-- It has decided whether to enqueue it. -/
  | decided (packet : RawPacket) (shouldEnqueue : Bool) (sourceIdleEdge : Option Bool)
  /-- It has yet to tell whether the source went idle, or woke up. -/
  | enqueued (sourceIdleEdge : Option Bool)

/-- A session: the player behind the callback, the ring of packets before it, and what sets
them going. -/
structure PlaybackSession {F : Type} (C : Codec F) where
  /-- The player. -/
  manager : JitterBufferManager C
  /-- The packets pushed and not yet popped. -/
  ring : List RawPacket
  /-- The packets the ring has room for. -/
  capacity : ℕ
  /-- The callback may render. -/
  renderEnabled : Bool
  /-- The callback is to start afresh. -/
  resetRequested : Bool
  /-- The stored intent of the user. -/
  userWantsPlaying : Bool
  /-- The commands sent and not yet taken. -/
  queue : List PlaybackCommand
  /-- No one is left to send a command. -/
  closed : Bool
  /-- The worker of the output. -/
  worker : OutputWorker
  /-- The silence of the source, where it is observed. -/
  sourceIdleDetector : Option SourceIdleDetector
  /-- Where the receiver stands. -/
  receiver : ReceiverPhase

/-- One step of a caller, of the receiver, of the worker or of the output. -/
inductive SessionInput (F : Type)
  /-- A pause or resume stores the intent of the user, or puts the old one back. -/
  | intend (playing : Bool)
  /-- A command is sent. -/
  | send (command : PlaybackCommand)
  /-- The last sender is gone. -/
  | close
  /-- The receiver takes a packet and decides whether to enqueue it. -/
  | receive (packet : RawPacket) (now : Instant)
  /-- The receiver pushes the packet, if it so decided. -/
  | push
  /-- The receiver tells that the source went idle, or woke up. -/
  | tell
  /-- The next action of the worker; `ok` tells whether the output takes part. -/
  | work (ok : Bool)
  /-- The device wants a buffer filled; the player reads the clock as often as it needs. -/
  | callback (ticks : ℕ → Tick F) (demand : Demand F)

/-- What comes of a step. -/
inductive SessionOutput (F : Type)
  /-- Nothing that is seen of the audio. -/
  | quiet
  /-- The packet is in the ring. -/
  | pushed (packet : RawPacket)
  /-- The ring is full. -/
  | dropped (packet : RawPacket)
  /-- The device gets silence. -/
  | muted (samples : List F)
  /-- The packets are taken from the ring and the buffer is filled, if that returns. -/
  | played (packets : List RawPacket) (samples : Option (List F))

/-- The packet that a step pushed. -/
def SessionOutput.packet? {F : Type} : SessionOutput F → Option RawPacket
  | .pushed packet => some packet
  | _ => none

namespace PlaybackSession

variable {F : Type} {C : Codec F}

section Step

variable (s : PlaybackSession C)

/-- The worker goes on to another action. -/
def goto (next : WorkerAction) : PlaybackSession C := { s with worker := { s.worker with next } }

/-- A command is sent, if anyone is there to take it. -/
def send (command : PlaybackCommand) : PlaybackSession C :=
  if s.worker.next = .gone then s else { s with queue := s.queue ++ [command] }

/-- The next action of the worker. -/
def work (ok : Bool) : PlaybackSession C :=
  match s.worker.next with
  | .receive =>
    match s.queue with
    | [] => if s.closed then s.goto .leave else s
    | command :: queue => { s with queue, worker := s.worker.take command }
  | .startReset => { s with resetRequested := true }.goto .startRender
  | .startRender => { s with renderEnabled := true }.goto .startStream
  | .startStream =>
    if ok then { s with worker := { s.worker with streamRunning := true } }.goto .receive
    else s.goto .fail
  | .pauseRender => { s with renderEnabled := false }.goto .pauseReset
  | .pauseReset => { s with resetRequested := true }.goto .pauseStream
  | .pauseStream =>
    if ok then { s with worker := { s.worker with streamRunning := false } }.goto .receive
    else s.goto .fail
  | .fail => { s with renderEnabled := false }.goto .leave
  | .leave => { s with renderEnabled := false }.goto .gone
  | .gone => s

/-- The detector takes in a packet. -/
def observe (packet : RawPacket) (now : Instant) : Option SourceIdleDetector × Option Bool :=
  match s.sourceIdleDetector with
  | none => (none, none)
  | some detector =>
    let (detector, edge) := detector.observe packet.isSilence now
    (some detector, edge)

/-- The receiver takes a packet and decides whether to enqueue it. -/
def receive (packet : RawPacket) (now : Instant) : PlaybackSession C :=
  match s.receiver with
  | .waiting =>
    let (sourceIdleDetector, sourceIdleEdge) := s.observe packet now
    let sourceIsSuspended := sourceIdleDetector.any (·.suspended)
    let shouldEnqueue := s.userWantsPlaying && !(sourceIsSuspended && packet.isSilence)
    { s with sourceIdleDetector, receiver := .decided packet shouldEnqueue sourceIdleEdge }
  | _ => s

/-- The receiver pushes the packet, if it so decided. -/
def push : PlaybackSession C × SessionOutput F :=
  match s.receiver with
  | .decided packet shouldEnqueue sourceIdleEdge =>
    let s := { s with receiver := .enqueued sourceIdleEdge }
    if shouldEnqueue then
      if s.ring.length < s.capacity then ({ s with ring := s.ring ++ [packet] }, .pushed packet)
      else (s, .dropped packet)
    else (s, .quiet)
  | _ => (s, .quiet)

/-- The receiver tells the worker, if the source went idle or woke up. -/
def tell : PlaybackSession C :=
  match s.receiver with
  | .enqueued (some idle) => { s.send (.setSourceIdle idle) with receiver := .waiting }
  | .enqueued none => { s with receiver := .waiting }
  | _ => s

end Step

section Callback

variable [Binary32 F] [FrameMark F] (s : PlaybackSession C)

/-- Start afresh, if that is requested. -/
def swapReset : PlaybackSession C :=
  if s.resetRequested then
    { s with resetRequested := false, manager := s.manager.triggerReset, ring := [] }
  else s

/-- The packets of the ring go to the player, and it fills the buffer. -/
def render (ticks : ℕ → Tick F) (demand : Demand F) : PlaybackSession C × SessionOutput F :=
  let manager := s.manager.ingestPackets s.ring
  match fillOutput (.list F) (JitterBufferManager.nextBlock ticks) (manager.withQueue [], 0)
      manager.playbackBuf demand with
  | some ((manager, _), queue, samples) =>
    ({ s with manager := manager.withQueue queue, ring := [] }, .played s.ring (some samples))
  | none => ({ s with manager, ring := [] }, .played s.ring none)

/-- One call of the output callback. -/
def callback (ticks : ℕ → Tick F) (demand : Demand F) : PlaybackSession C × SessionOutput F :=
  let s := s.swapReset
  if s.renderEnabled then s.render ticks demand
  else ({ s with ring := [] }, .muted (List.replicate demand.size 0.0))

/-- One step of the session. -/
def step : SessionInput F → PlaybackSession C × SessionOutput F
  | .intend playing => ({ s with userWantsPlaying := playing }, .quiet)
  | .send command => (s.send command, .quiet)
  | .close => ({ s with closed := true }, .quiet)
  | .receive packet now => (s.receive packet now, .quiet)
  | .push => s.push
  | .tell => (s.tell, .quiet)
  | .work ok => (s.work ok, .quiet)
  | .callback ticks demand => s.callback ticks demand

end Callback

/-- The session as it is built. -/
def new (manager : JitterBufferManager C) (capacity : ℕ) (sourceIdleAfter : Option Duration) :
    PlaybackSession C where
  manager
  ring := []
  capacity
  renderEnabled := true
  resetRequested := false
  userWantsPlaying := true
  queue := []
  closed := false
  worker := .new
  sourceIdleDetector := sourceIdleAfter.map SourceIdleDetector.new
  receiver := .waiting

section Machine

variable [Binary32 F] [FrameMark F]

/-- The session as a machine. -/
def machine (manager : JitterBufferManager C) (capacity : ℕ) (sourceIdleAfter : Option Duration) :
    Machine (PlaybackSession C) (SessionInput F) (SessionOutput F) where
  init := new manager capacity sourceIdleAfter
  step := step

/-- One executed step of the session. -/
abbrev SessionEvent (C : Codec F) := Event (PlaybackSession C) (SessionInput F) (SessionOutput F)

/-- The worker begins to start the stream. -/
def Resumes (e : SessionEvent C) : Prop :=
  e.before.worker.next = .startReset ∧ ∃ ok, e.input = .work ok

/-- The worker begins to pause the stream. -/
def Pauses (e : SessionEvent C) : Prop :=
  e.before.worker.next = .pauseRender ∧ ∃ ok, e.input = .work ok

/-- The packets that a run pushed. -/
def pushes (events : List (SessionEvent C)) : List RawPacket :=
  events.filterMap fun e => e.output.packet?

end Machine

/-! ### What is dropped before it is heard -/

/-- The session with other audio in the player and in the ring. -/
def withAudio (s : PlaybackSession C) (manager : JitterBufferManager C) (ring : List RawPacket) :
    PlaybackSession C :=
  { s with manager, ring }

/-- The sessions differ only in the audio they hold, in the player or in the ring. -/
def SameButAudio (s s' : PlaybackSession C) : Prop :=
  ∃ manager ring, s' = s.withAudio manager ring ∧ s.manager.SameButAudio manager ∧
    ring.length = s.ring.length

/-- Nothing is rendered before the player starts afresh. -/
def Silenced (s : PlaybackSession C) : Prop :=
  s.resetRequested = true ∨ s.renderEnabled = false ∧ s.worker.Stopped

/-- Sessions that play alike: what they hold of different audio is dropped before it is heard. -/
def PlaysAlike (s s' : PlaybackSession C) : Prop :=
  ∃ manager ring, s' = s.withAudio manager ring ∧
    (s.Silenced ∧ s.manager.SameButAudio manager ∧ ring.length = s.ring.length ∨
      s.manager.Alike manager ∧ ring = s.ring)

/-- A step that does not touch the audio, nor takes back that it is to be dropped. -/
structure Controls (f : PlaybackSession C → PlaybackSession C) : Prop where
  /-- It neither reads nor changes the audio. -/
  audio : ∀ s manager ring, f (s.withAudio manager ring) = (f s).withAudio manager ring
  /-- A reset that is requested stays requested. -/
  reset : ∀ s, s.resetRequested = true → (f s).resetRequested = true
  /-- A stopped output is started with a reset only. -/
  stopped : ∀ s, s.renderEnabled = false → s.worker.Stopped → (f s).Silenced

/-- What the ring holds was pushed last of these packets, unless it is to be dropped. -/
def Fresh (since : List RawPacket) (s : PlaybackSession C) : Prop :=
  s.resetRequested = true ∨ s.ring <:+ since

variable {f : PlaybackSession C → PlaybackSession C} {s s' : PlaybackSession C}
  {since : List RawPacket}

theorem Controls.manager (h : Controls f) (s : PlaybackSession C) :
    (f s).manager = s.manager := by
  have haudio := congrArg PlaybackSession.manager (h.audio s s.manager s.ring)
  exact haudio

theorem Controls.ring (h : Controls f) (s : PlaybackSession C) : (f s).ring = s.ring := by
  have haudio := congrArg PlaybackSession.ring (h.audio s s.manager s.ring)
  exact haudio

theorem Controls.silenced (h : Controls f) (hs : s.Silenced) : (f s).Silenced := by
  obtain hreset | ⟨hrender, hstopped⟩ := hs
  · exact Or.inl (h.reset s hreset)
  · exact h.stopped s hrender hstopped

theorem Controls.playsAlike (h : Controls f) (hs : s.PlaysAlike s') : (f s).PlaysAlike (f s') := by
  obtain ⟨manager, ring, rfl, hstage⟩ := hs
  refine ⟨manager, ring, h.audio s manager ring, ?_⟩
  rw [h.manager, h.ring]
  exact hstage.imp_left fun hdropped => ⟨h.silenced hdropped.1, hdropped.2⟩

theorem controls_intend (playing : Bool) :
    Controls (C := C) fun s => { s with userWantsPlaying := playing } :=
  ⟨fun _ _ _ => rfl, fun _ h => h, fun _ h h' => Or.inr ⟨h, h'⟩⟩

theorem controls_close : Controls (C := C) fun s => { s with closed := true } :=
  ⟨fun _ _ _ => rfl, fun _ h => h, fun _ h h' => Or.inr ⟨h, h'⟩⟩

theorem controls_send (command : PlaybackCommand) :
    Controls (C := C) fun s => s.send command where
  audio s manager ring := by
    obtain ⟨_, _, _, _, _, _, _, _, ⟨next, _, _, _⟩, _, _⟩ := s
    cases next <;> rfl
  reset s h := by
    unfold send
    split
    · exact h
    · exact h
  stopped s h h' := by
    unfold send
    split
    · exact Or.inr ⟨h, h'⟩
    · exact Or.inr ⟨h, h'⟩

theorem controls_receive (packet : RawPacket) (now : Instant) :
    Controls (C := C) fun s => s.receive packet now where
  audio s manager ring := by
    obtain ⟨_, _, _, _, _, _, _, _, _, _, receiver⟩ := s
    cases receiver with
    | waiting => rfl
    | decided packet shouldEnqueue edge => rfl
    | enqueued edge => rfl
  reset s h := by
    unfold receive
    split
    · exact h
    · exact h
  stopped s h h' := by
    unfold receive
    split
    · exact Or.inr ⟨h, h'⟩
    · exact Or.inr ⟨h, h'⟩

theorem controls_tell : Controls (C := C) tell where
  audio s manager ring := by
    obtain ⟨_, _, _, _, _, _, _, _, ⟨next, _, _, _⟩, _, receiver⟩ := s
    cases receiver with
    | waiting => rfl
    | decided packet shouldEnqueue edge => rfl
    | enqueued edge =>
      cases edge with
      | none => rfl
      | some idle => cases next <;> rfl
  reset s h := by
    unfold tell
    split
    · exact (controls_send _).reset s h
    · exact h
    · exact h
  stopped s h h' := by
    unfold tell
    split
    · exact (controls_send _).stopped s h h'
    · exact Or.inr ⟨h, h'⟩
    · exact Or.inr ⟨h, h'⟩

theorem controls_work (ok : Bool) : Controls (C := C) fun s => s.work ok where
  audio s manager ring := by
    obtain ⟨_, _, _, _, _, _, queue, closed, ⟨next, _, _, _⟩, _, _⟩ := s
    cases next with
    | receive =>
      cases queue with
      | nil => cases closed with
        | false => rfl
        | true => rfl
      | cons command queue => rfl
    | startStream => cases ok with
      | false => rfl
      | true => rfl
    | pauseStream => cases ok with
      | false => rfl
      | true => rfl
    | _ => rfl
  reset s h := by
    unfold work
    split
    · split
      · split
        · exact h
        · exact h
      · exact h
    · rfl
    · exact h
    · split
      · exact h
      · exact h
    · exact h
    · rfl
    · split
      · exact h
      · exact h
    · exact h
    · exact h
    · exact h
  stopped s h h' := by
    unfold OutputWorker.Stopped at h'
    unfold work
    cases hnext : s.worker.next with
    | receive =>
      rw [hnext] at h'
      dsimp only at h' ⊢
      cases s.queue with
      | nil =>
        dsimp only
        split
        · exact Or.inr ⟨h, trivial⟩
        · refine Or.inr ⟨h, ?_⟩
          unfold OutputWorker.Stopped
          rw [hnext]
          exact h'
      | cons command queue => exact Or.inr ⟨h, OutputWorker.stopped_take hnext h' command⟩
    | startReset => exact Or.inl rfl
    | startRender => rw [hnext] at h'; exact h'.elim
    | startStream => rw [hnext] at h'; exact h'.elim
    | pauseRender => rw [hnext] at h'; exact h'.elim
    | pauseReset => exact Or.inl rfl
    | pauseStream =>
      dsimp only
      split
      · exact Or.inr ⟨h, rfl⟩
      · exact Or.inr ⟨h, trivial⟩
    | fail => exact Or.inr ⟨rfl, trivial⟩
    | leave => exact Or.inr ⟨rfl, trivial⟩
    | gone =>
      refine Or.inr ⟨h, ?_⟩
      unfold OutputWorker.Stopped
      rw [hnext]
      trivial

/-- What a push comes to, by where the receiver stands and whether the ring has room. -/
def pushOutcome (room : Bool) : ReceiverPhase → ReceiverPhase × SessionOutput F
  | .decided packet true edge => (.enqueued edge, if room then .pushed packet else .dropped packet)
  | .decided _ false edge => (.enqueued edge, .quiet)
  | receiver => (receiver, .quiet)

theorem push_eq (s : PlaybackSession C) :
    s.push =
      let (receiver, output) := pushOutcome (decide (s.ring.length < s.capacity)) s.receiver
      ({ s with receiver, ring := s.ring ++ output.packet?.toList }, output) := by
  obtain ⟨manager, ring, capacity, _, _, _, _, _, _, _, receiver⟩ := s
  unfold push
  cases receiver with
  | waiting => simp [pushOutcome, SessionOutput.packet?]
  | enqueued edge => simp [pushOutcome, SessionOutput.packet?]
  | decided packet shouldEnqueue edge =>
    cases shouldEnqueue with
    | false => simp [pushOutcome, SessionOutput.packet?]
    | true =>
      by_cases hroom : ring.length < capacity
      · simp [pushOutcome, SessionOutput.packet?, hroom]
      · simp [pushOutcome, SessionOutput.packet?, hroom]

/-- A push depends on how many packets the ring holds, not on which. -/
theorem PlaysAlike.push (hs : s.PlaysAlike s') :
    s.push.1.PlaysAlike s'.push.1 ∧ s'.push.2 = s.push.2 := by
  obtain ⟨manager, ring, rfl, hstage⟩ := hs
  have hlength : ring.length = s.ring.length := by
    obtain ⟨-, -, hlength⟩ | ⟨-, rfl⟩ := hstage
    · exact hlength
    · rfl
  have hroom : decide ((s.withAudio manager ring).ring.length <
      (s.withAudio manager ring).capacity) = decide (s.ring.length < s.capacity) :=
    decide_eq_decide.mpr (by dsimp only [withAudio]; rw [hlength])
  rw [push_eq, push_eq, hroom]
  dsimp only [withAudio]
  generalize pushOutcome _ _ = outcome
  refine ⟨⟨manager, ring ++ outcome.2.packet?.toList, rfl, ?_⟩, rfl⟩
  refine hstage.imp (fun ⟨hsilenced, hsame, _⟩ => ⟨hsilenced, hsame, ?_⟩)
    fun ⟨halike, hring⟩ => ⟨halike, congrArg (· ++ outcome.2.packet?.toList) hring⟩
  rw [List.length_append, List.length_append, hlength]

theorem Controls.fresh (h : Controls f) (hs : s.Fresh since) : (f s).Fresh since := by
  obtain hflag | hring := hs
  · exact Or.inl (h.reset s hflag)
  · exact Or.inr (by rwa [h.ring])

theorem Fresh.push (hs : s.Fresh since) : s.push.1.Fresh (since ++ s.push.2.packet?.toList) := by
  rw [push_eq]
  generalize pushOutcome _ _ = outcome
  obtain hflag | ⟨before, rfl⟩ := hs
  · exact Or.inl hflag
  · exact Or.inr ⟨before, (List.append_assoc _ _ _).symm⟩

variable [Binary32 F] [FrameMark F] {ticks : ℕ → Tick F} {demand : Demand F}

/-- Players that are alike fill a buffer alike. -/
theorem render_alike (ticks : ℕ → Tick F) (demand : Demand F) {manager : JitterBufferManager C}
    (halike : s.manager.Alike manager) :
    ∃ manager', ((s.withAudio manager s.ring).render ticks demand).1 =
        (s.render ticks demand).1.withAudio manager' (s.render ticks demand).1.ring ∧
      (s.render ticks demand).1.manager.Alike manager' ∧
      ((s.withAudio manager s.ring).render ticks demand).2 = (s.render ticks demand).2 := by
  have hfed := halike.ingestPackets s.ring
  obtain ⟨⟨n, k⟩, queue, samples, -, -, hfill, -⟩ :=
    fillLoop_spec (.list F) (JitterBufferManager.nextBlock ticks) demand.volume demand.size
      ((s.manager.ingestPackets s.ring).withQueue [], 0)
      (s.manager.ingestPackets s.ring).playbackBuf le_rfl
  obtain ⟨⟨n', k'⟩, hfill', halike', -⟩ := fillLoop_congr
    (R := fun s s' => JitterBufferManager.Alike s.1 s'.1 ∧ s'.2 = s.2)
    (fun _ _ h => JitterBufferManager.Alike.nextBlock ticks h)
    ((manager.ingestPackets s.ring).withQueue [], 0) ⟨hfed.withQueue [], rfl⟩ hfill
  rw [← hfed.playbackBuf] at hfill'
  unfold render fillOutput
  dsimp only [withAudio]
  rw [hfill, hfill']
  exact ⟨n'.withQueue queue, rfl, halike'.withQueue queue, rfl⟩

/-- The player starts afresh from other audio, or goes on from audio that is alike. -/
theorem PlaysAlike.swapReset (hreset : ∀ state, C.resetState state = C.init)
    (hs : s.PlaysAlike s') : ∃ manager ring, s'.swapReset = s.swapReset.withAudio manager ring ∧
      (s.swapReset.manager.Alike manager ∧ ring = s.swapReset.ring ∨
        s.swapReset.renderEnabled = false ∧ s.swapReset.PlaysAlike s'.swapReset) := by
  obtain ⟨manager, ring, rfl, hstage⟩ := hs
  unfold PlaybackSession.swapReset
  by_cases hflag : s.resetRequested = true
  · have hflag' : (s.withAudio manager ring).resetRequested = true := hflag
    rw [if_pos hflag, if_pos hflag']
    refine ⟨manager.triggerReset, [], rfl, Or.inl ⟨?_, rfl⟩⟩
    obtain ⟨-, hsame, -⟩ | ⟨halike, -⟩ := hstage
    · exact hsame.forgotten hreset
    · exact halike.triggerReset
  · have hflag' : ¬(s.withAudio manager ring).resetRequested = true := hflag
    rw [if_neg hflag, if_neg hflag']
    refine ⟨manager, ring, rfl, ?_⟩
    obtain ⟨hsilenced, hsame⟩ | halike := hstage
    · exact Or.inr ⟨(hsilenced.resolve_left hflag).1, manager, ring, rfl, Or.inl ⟨hsilenced, hsame⟩⟩
    · exact Or.inl halike

theorem PlaysAlike.callback (hreset : ∀ state, C.resetState state = C.init)
    (hs : s.PlaysAlike s') : (s.callback ticks demand).1.PlaysAlike (s'.callback ticks demand).1 ∧
      (s'.callback ticks demand).2 = (s.callback ticks demand).2 := by
  obtain ⟨manager, ring, hswap, hstage⟩ := hs.swapReset hreset
  unfold PlaybackSession.callback
  rw [hswap] at hstage ⊢
  generalize s.swapReset = s at hstage ⊢
  have hflag : (s.withAudio manager ring).renderEnabled = s.renderEnabled := rfl
  dsimp only
  rw [hflag]
  obtain ⟨halike, rfl⟩ | ⟨hrender, manager', ring', hother, hstage⟩ := hstage
  · split
    · obtain ⟨manager', hnext, halike', houtput⟩ := render_alike ticks demand halike
      exact ⟨⟨manager', _, hnext, Or.inr ⟨halike', rfl⟩⟩, houtput⟩
    · exact ⟨⟨manager, [], rfl, Or.inr ⟨halike, rfl⟩⟩, rfl⟩
  · have hmuted : ¬s.renderEnabled = true := by
      rw [hrender]
      exact Bool.false_ne_true
    rw [hother, if_neg hmuted, if_neg hmuted]
    refine ⟨⟨manager', [], rfl, ?_⟩, rfl⟩
    exact hstage.imp (fun ⟨hsilenced, hsame, _⟩ => ⟨hsilenced, hsame, rfl⟩) fun h => ⟨h.1, rfl⟩

/-- Every step does the same in both sessions. -/
theorem PlaysAlike.step (hreset : ∀ state, C.resetState state = C.init) (hs : s.PlaysAlike s')
    (input : SessionInput F) :
    (s.step input).1.PlaysAlike (s'.step input).1 ∧ (s'.step input).2 = (s.step input).2 := by
  cases input with
  | intend playing => exact ⟨(controls_intend playing).playsAlike hs, rfl⟩
  | send command => exact ⟨(controls_send command).playsAlike hs, rfl⟩
  | close => exact ⟨controls_close.playsAlike hs, rfl⟩
  | receive packet now => exact ⟨(controls_receive packet now).playsAlike hs, rfl⟩
  | push => exact hs.push
  | tell => exact ⟨controls_tell.playsAlike hs, rfl⟩
  | work ok => exact ⟨(controls_work ok).playsAlike hs, rfl⟩
  | callback ticks demand => exact hs.callback hreset

/-! ### What a callback takes from the ring -/

omit [FrameMark F] in
theorem Fresh.swapReset (hs : s.Fresh since) : s.swapReset.ring <:+ since := by
  unfold PlaybackSession.swapReset
  by_cases hflag : s.resetRequested = true
  · rw [if_pos hflag]
    exact List.nil_suffix
  · rw [if_neg hflag]
    exact hs.resolve_left hflag

theorem render_ring (s : PlaybackSession C) : (s.render ticks demand).1.ring = [] := by
  unfold render
  dsimp only
  split
  · rfl
  · rfl

theorem render_output (s : PlaybackSession C) (ticks : ℕ → Tick F) (demand : Demand F) :
    ∃ samples, (s.render ticks demand).2 = .played s.ring samples := by
  unfold render
  dsimp only
  split
  · exact ⟨_, rfl⟩
  · exact ⟨_, rfl⟩

/-- A callback drains the ring, and pushes nothing. -/
theorem Fresh.callback (s : PlaybackSession C) : (s.callback ticks demand).1.Fresh
    (since ++ (s.callback ticks demand).2.packet?.toList) := by
  unfold PlaybackSession.callback
  dsimp only
  split
  · exact Or.inr (by rw [render_ring]; exact List.nil_suffix)
  · exact Or.inr List.nil_suffix

theorem Fresh.step (hs : s.Fresh since) (input : SessionInput F) :
    (s.step input).1.Fresh (since ++ (s.step input).2.packet?.toList) := by
  have hcontrol : ∀ {f : PlaybackSession C → PlaybackSession C}, Controls f →
      (f s).Fresh (since ++ (SessionOutput.packet? (F := F) .quiet).toList) := by
    intro f hf
    exact (List.append_nil since).symm ▸ hf.fresh hs
  cases input with
  | intend playing => exact hcontrol (controls_intend playing)
  | send command => exact hcontrol (controls_send command)
  | close => exact hcontrol controls_close
  | receive packet now => exact hcontrol (controls_receive packet now)
  | push => exact hs.push
  | tell => exact hcontrol controls_tell
  | work ok => exact hcontrol (controls_work ok)
  | callback ticks demand => exact .callback s

/-- The packets a callback plays are the last ones pushed. -/
theorem Fresh.played (hs : s.Fresh since) {input : SessionInput F} {packets : List RawPacket}
    {samples : Option (List F)} (h : (s.step input).2 = .played packets samples) :
    packets <:+ since := by
  cases input with
  | callback ticks demand =>
    change (s.callback ticks demand).2 = _ at h
    unfold PlaybackSession.callback at h
    dsimp only at h
    split at h
    · obtain ⟨samples', houtput⟩ := s.swapReset.render_output ticks demand
      rw [houtput] at h
      cases h
      exact hs.swapReset
    · cases h
  | push =>
    change s.push.2 = _ at h
    rw [push_eq] at h
    dsimp only at h
    unfold pushOutcome at h
    split at h
    · split at h
      · cases h
      · cases h
    · cases h
    · cases h
  | _ => cases h

omit [Binary32 F] [FrameMark F] in
theorem pushes_cons (e : SessionEvent C) (events : List (SessionEvent C)) :
    pushes (e :: events) = e.output.packet?.toList ++ pushes events := by
  unfold pushes
  rw [List.filterMap_cons]
  cases e.output.packet? with
  | none => rfl
  | some packet => rfl

/-- Over a run, the ring holds what was pushed last. -/
theorem Fresh.run (manager : JitterBufferManager C) (capacity : ℕ)
    (sourceIdleAfter : Option Duration) (since : List RawPacket) (hs : s.Fresh since)
    (inputs : List (SessionInput F)) :
    ((machine manager capacity sourceIdleAfter).runFrom s inputs).Fresh
      (since ++ pushes ((machine manager capacity sourceIdleAfter).eventsFrom s inputs)) := by
  induction inputs generalizing s since with
  | nil => exact (List.append_nil since).symm ▸ hs
  | cons input inputs ih =>
    have hnext := ih _ (hs.step input)
    rw [List.append_assoc] at hnext
    rw [Machine.eventsFrom_cons, pushes_cons]
    exact hnext

theorem Resumes.resetRequested {e : SessionEvent C} (h : Resumes e)
    (he : e.after = (e.before.step e.input).1) : e.after.resetRequested = true := by
  obtain ⟨hnext, ok, hinput⟩ := h
  rw [he, hinput]
  change (e.before.work ok).resetRequested = true
  rw [work, hnext]
  rfl

theorem Pauses.silenced {e : SessionEvent C} (h : Pauses e)
    (he : e.after = (e.before.step e.input).1) : e.after.Silenced := by
  obtain ⟨hnext, ok, hinput⟩ := h
  rw [he, hinput]
  change (e.before.work ok).Silenced
  rw [work, hnext]
  exact Or.inr ⟨rfl, trivial⟩

/-- In a run, what a callback takes from the ring after a resumption began was pushed after that;
and from the first store of a pause or of a resumption on, the audio then held in the player and
in the ring makes no difference to what is heard. -/
theorem noStale_of_run (hreset : ∀ state, C.resetState state = C.init)
    (manager : JitterBufferManager C) (capacity : ℕ) (sourceIdleAfter : Option Duration)
    (inputs : List (SessionInput F)) :
    (∀ pre start mid cb post, (machine manager capacity sourceIdleAfter).events inputs =
        pre ++ start :: mid ++ cb :: post → Resumes start →
        ∀ packets samples, cb.output = .played packets samples → packets <:+ pushes mid) ∧
      ∀ pre e post, (machine manager capacity sourceIdleAfter).events inputs = pre ++ e :: post →
        Pauses e ∨ Resumes e → ∀ s', e.after.SameButAudio s' →
          ((machine manager capacity sourceIdleAfter).eventsFrom s' (post.map Event.input)).map
            Event.output = post.map Event.output := by
  constructor
  · intro pre start mid cb post hsplit hresumes packets samples hplayed
    obtain ⟨as, bs, cs, -, -, -, hstart, hmid, hbefore, hcb⟩ := Machine.eventsFrom_between _ hsplit
    have hflag := hresumes.resetRequested (congrArg Event.after hstart)
    have hfresh := Fresh.run manager capacity sourceIdleAfter [] (Or.inl hflag) bs
    rw [List.nil_append, ← hmid, ← hbefore] at hfresh
    rw [hcb] at hplayed
    exact hfresh.played hplayed
  · rintro pre e post hsplit hstore s' ⟨manager', ring, rfl, hsame, hlength⟩
    obtain ⟨as, bs, -, -, he, hpost⟩ := Machine.eventsFrom_split _ hsplit
    have hstep : e.after = (e.before.step e.input).1 := by
      have hbefore := congrArg Event.before he
      rw [Machine.eventAt_before] at hbefore
      rw [← hbefore] at he
      exact congrArg Event.after he
    have hsilenced : e.after.Silenced :=
      hstore.elim (·.silenced hstep) fun h => Or.inl (h.resetRequested hstep)
    have hinputs : post.map Event.input = bs := by rw [hpost, Machine.map_input_eventsFrom]
    rw [hinputs, hpost]
    refine Machine.outputs_eq_of_related _ (R := PlaysAlike)
      (fun _ _ input h => h.step hreset input) ?_ bs
    exact ⟨manager', ring, rfl, Or.inl ⟨hsilenced, hsame, hlength⟩⟩

/-- One call of the callback for a stereo pair of samples. -/
def pairCallback : SessionInput SoftFloat :=
  .callback (fun _ => ⟨0, none, 0, false⟩) ⟨2, 1.0⟩

/-- Packet 2 is decided on before the user pauses, and pushed into the ring that the callback
has drained since; packet 3 comes after the stream is started again. -/
def pausedRun : List (SessionInput SoftFloat) :=
  [.receive (.silent 1 0) 0, .push, .tell, .receive (.silent 2 0) 0, .intend false,
    .send (.setUserPlaying false 0), .work true, .work true, .work true, pairCallback, .work true,
    .push, .tell, .intend true, .send (.setUserPlaying true 1), .work true, .work true, .work true,
    .work true, pairCallback, .receive (.silent 3 0) 0, .push, .tell, pairCallback]

/-- A session over Wi-Fi with a codec that was never fed. -/
def unfedMachine :
    Machine (PlaybackSession (.unfed SoftFloat)) (SessionInput SoftFloat)
      (SessionOutput SoftFloat) :=
  machine (.new _ ⟨30, 1000, 0, 0.25, none⟩ .wifi5Ghz 0) 4 none

/-- The sequence numbers of the packets that a step pushed, or took from the ring to play. -/
def moved (e : SessionEvent (.unfed SoftFloat)) : List ℕ × List ℕ :=
  match e.output with
  | .pushed packet => ([packet.seq], [])
  | .played packets _ => ([], packets.map RawPacket.seq)
  | _ => ([], [])

example : (unfedMachine.events pausedRun).flatMap (fun e => (moved e).1) = [1, 2, 3] ∧
    (unfedMachine.events pausedRun).flatMap (fun e => (moved e).2) = [3] := by
  decide +kernel

theorem noStale_pausedRun :
    (∀ pre start mid cb post, unfedMachine.events pausedRun = pre ++ start :: mid ++ cb :: post →
        Resumes start → ∀ packets samples, cb.output = .played packets samples →
          packets <:+ pushes mid) ∧
      ∀ pre e post, unfedMachine.events pausedRun = pre ++ e :: post → Pauses e ∨ Resumes e →
        ∀ s', e.after.SameButAudio s' →
          (unfedMachine.eventsFrom s' (post.map Event.input)).map Event.output =
            post.map Event.output :=
  noStale_of_run (fun _ => rfl) _ _ _ pausedRun

end PlaybackSession

end Gemacast.Player
