import Gemacast.Core.Machine
import Gemacast.Streamer.Encode
import Gemacast.Streamer.UdpAudioSender

/-!
# Pacing the packets of a UDP session

A sender waits for a deadline before each frame. A send that is late by less than half a
period leaves the next deadline on the media clock; after a longer stall the clock is taken
up again half a period after the send, so that the missed frames are not sent in a burst.
-/

namespace Gemacast.Streamer

open Gemacast.Core Gemacast.Jitter

/-- A frame on its way to the encoders; `τ` is how its clock is read. -/
structure CapturedFrame (F τ : Type*) where
  /-- Interleaved samples. -/
  samples : List F
  /-- The number of the frame in its capture. -/
  position : UInt64
  /-- When its last sample was captured. -/
  readyAt : τ
  deriving DecidableEq, Repr

namespace CapturedFrame

/-- The length of a frame. -/
def duration : Duration := Duration.fromMillis 10

/-- The age from which a frame is not sent any more. -/
def maxSendAge : Duration := Duration.fromMillis 40

/-- The frame is too old to be sent. -/
def expired {F : Type*} (f : CapturedFrame F Instant) (now : Instant) : Bool :=
  decide (maxSendAge ≤ now.durationSince f.readyAt)

end CapturedFrame

/-- When the next packet is due. -/
structure PacketPacer where
  /-- The instant no packet is sent before. -/
  deadline : Instant
  deriving DecidableEq, Repr

namespace PacketPacer

/-- The first packet is due at once. -/
def new (now : Instant) : PacketPacer := ⟨now⟩

/-- The deadline after a send. -/
def sent (p : PacketPacer) (now : Instant) (period : Duration) : PacketPacer :=
  ⟨max (p.deadline + period) (now + period / 2)⟩

/-- The pacer after sends at the given instants. -/
def sentAll (p : PacketPacer) (period : Duration) (sends : List Instant) : PacketPacer :=
  sends.foldl (fun p now => p.sent now period) p

/-- No send is before the deadline that the sends before it left. -/
def Awaited (period : Duration) : PacketPacer → List Instant → Prop
  | _, [] => True
  | p, now :: sends => p.deadline ≤ now ∧ Awaited period (p.sent now period) sends

/-- Every send is late by at most half a period. -/
def Prompt (period : Duration) : PacketPacer → List Instant → Prop
  | _, [] => True
  | p, now :: sends =>
    now ≤ p.deadline + period / 2 ∧ Prompt period (p.sent now period) sends

variable {p : PacketPacer} {period : Duration} {now : Instant} {sends : List Instant}

instance decidableAwaited (period : Duration) :
    ∀ (p : PacketPacer) (sends : List Instant), Decidable (Awaited period p sends)
  | _, [] => .isTrue trivial
  | p, now :: sends =>
    haveI := decidableAwaited period (p.sent now period) sends
    inferInstanceAs (Decidable (p.deadline ≤ now ∧ Awaited period (p.sent now period) sends))

@[simp] theorem sentAll_nil : p.sentAll period [] = p := rfl

@[simp] theorem sentAll_cons :
    p.sentAll period (now :: sends) = (p.sent now period).sentAll period sends :=
  rfl

theorem deadline_add_le_sent : p.deadline + period ≤ (p.sent now period).deadline :=
  le_max_left _ _

theorem now_add_le_sent : now + period / 2 ≤ (p.sent now period).deadline := le_max_right _ _

/-- A send that is late by at most half a period leaves the media clock alone. -/
theorem deadline_sent_of_prompt (h : now ≤ p.deadline + period / 2) :
    (p.sent now period).deadline = p.deadline + period := by
  apply max_eq_left
  have hhalves : period / 2 + period / 2 ≤ period :=
    (Nat.mul_two (period / 2)).symm.trans_le (Nat.div_mul_le_self period 2)
  calc now + period / 2 ≤ p.deadline + period / 2 + period / 2 := Nat.add_le_add_right h _
    _ = p.deadline + (period / 2 + period / 2) := Nat.add_assoc _ _ _
    _ ≤ p.deadline + period := Nat.add_le_add_left hhalves _

/-- Each send moves the deadline on by at least one period. -/
theorem deadline_add_le_sentAll (p : PacketPacer) (period : Duration) (sends : List Instant) :
    p.deadline + sends.length * period ≤ (p.sentAll period sends).deadline := by
  induction sends generalizing p with
  | nil => simp
  | cons now sends ih =>
    have hrest := ih (p.sent now period)
    have hfirst : p.deadline + period ≤ (p.sent now period).deadline := deadline_add_le_sent
    rw [List.length_cons, Nat.succ_mul, sentAll_cons]
    calc p.deadline + (sends.length * period + period)
        = p.deadline + period + sends.length * period := by
          rw [Nat.add_comm (sends.length * period), Nat.add_assoc]
      _ ≤ (p.sent now period).deadline + sends.length * period := Nat.add_le_add_right hfirst _
      _ ≤ ((p.sent now period).sentAll period sends).deadline := hrest

/-- Sends that are all prompt keep the deadlines on the media clock. -/
theorem deadline_sentAll_of_prompt (h : Prompt period p sends) :
    (p.sentAll period sends).deadline = p.deadline + sends.length * period := by
  induction sends generalizing p with
  | nil => simp
  | cons now sends ih =>
    rw [sentAll_cons, ih h.2, deadline_sent_of_prompt h.1, List.length_cons, Nat.succ_mul,
      Nat.add_assoc, Nat.add_comm period]

/-- Every send waits for half a period after the one before it, whichever regime the pacer is
in. -/
theorem spaced (h : Awaited period p sends) :
    sends.IsChain fun before after => before + period / 2 ≤ after := by
  induction sends generalizing p with
  | nil => exact List.isChain_nil
  | cons now sends ih =>
    cases sends with
    | nil => exact List.isChain_singleton _
    | cons next sends =>
      refine List.isChain_cons_cons.mpr ⟨?_, ih h.2⟩
      exact now_add_le_sent.trans h.2.1

theorem Awaited.concat (h : Awaited period p sends)
    (hnow : (p.sentAll period sends).deadline ≤ now) : Awaited period p (sends ++ [now]) := by
  induction sends generalizing p with
  | nil => exact ⟨hnow, trivial⟩
  | cons first sends ih => exact ⟨h.1, ih h.2 hnow⟩

theorem sentAll_concat : p.sentAll period (sends ++ [now]) =
    (p.sentAll period sends).sent now period :=
  List.foldl_concat _ _ _ _

/-- Sends that wait for their deadlines are at least half a period apart, no deadline is ahead
of the media clock, and prompt sends leave it exactly on it. -/
theorem paced (start : Instant) (period : Duration) (sends : List Instant)
    (h : Awaited period (new start) sends) :
    (sends.IsChain fun before after => before + period / 2 ≤ after) ∧
      ∀ n ≤ sends.length,
        start + n * period ≤ ((new start).sentAll period (sends.take n)).deadline ∧
        (Prompt period (new start) (sends.take n) →
          ((new start).sentAll period (sends.take n)).deadline = start + n * period) := by
  refine ⟨spaced h, fun n hn => ?_⟩
  have hlength : (sends.take n).length = n := List.length_take_of_le hn
  refine ⟨?_, fun hprompt => ?_⟩
  · have hleast := deadline_add_le_sentAll (new start) period (sends.take n)
    rwa [hlength] at hleast
  · have hexact := deadline_sentAll_of_prompt hprompt
    rwa [hlength] at hexact

/-- A prompt send, a stall of ten periods, and the send after it. -/
def stalledSends : List Instant := [900000, 110000000, 115000000]

theorem paced_stalledSends : Awaited CapturedFrame.duration (new 0) stalledSends ∧
    (stalledSends.IsChain fun before after => before + CapturedFrame.duration / 2 ≤ after) := by
  have hawaited : Awaited CapturedFrame.duration (new 0) stalledSends := by decide
  exact ⟨hawaited, (paced 0 CapturedFrame.duration stalledSends hawaited).1⟩

end PacketPacer

/-- What a session of a sender keeps. -/
structure UdpSession (F : Type) where
  /-- The numbers of its packets. -/
  sender : UdpAudioSender
  /-- When the next frame is due. -/
  pacer : PacketPacer
  /-- The frame that waits to be sent, and its packet. -/
  pending : Option (CapturedFrame F Instant × List UInt8)
  /-- Frames that were too old to be sent. -/
  expiredFrames : UInt64
  /-- Frames that the session was too slow to receive. -/
  laggedFrames : UInt64
  /-- A frame could not be encoded. -/
  failed : Option AudioError

namespace UdpSession

variable {F : Type} [Binary32 F] [SampleBytes F]

/-- What a session waits for, as far as it sends frames. -/
inductive Input (F : Type)
  /-- Frames were lost before they were received. -/
  | lagged (count : UInt64)
  /-- A frame is received, with the encoder in its current state. -/
  | frame (frame : CapturedFrame F Instant) (encoder : Option (OpusEncoder F)) (now : Instant)
  /-- The sleep until the deadline is over; the socket takes the first datagrams. -/
  | woken (now : Instant) (accepted : ℕ)

/-- A frame that was sent. -/
structure Sent where
  /-- The reading of the clock. -/
  now : Instant
  /-- The datagrams that the socket took. -/
  datagrams : List (List UInt8)

/-- The session at its start. -/
def new (sender : UdpAudioSender) (start : Instant) : UdpSession F where
  sender := sender
  pacer := .new start
  pending := none
  expiredFrames := 0
  laggedFrames := 0
  failed := none

/-- One round of the loop. A branch that is not enabled changes nothing. -/
def step (bitrate : AudioBitrate) (s : UdpSession F) (i : Input F) : UdpSession F × Option Sent :=
  if s.failed.isSome then (s, none)
  else
    match i, s.pending with
    | .lagged count, none => ({ s with laggedFrames := s.laggedFrames + count }, none)
    | .frame frame encoder now, none =>
      if frame.expired now then ({ s with expiredFrames := s.expiredFrames + 1 }, none)
      else
        -- Capture positions survive queue drops; the receiver observes the discontinuity.
        match AudioFrameEncoder.encode frame.samples encoder bitrate
            (s.sender.sequenceBase + frame.position) with
        | .error e => ({ s with failed := some e }, none)
        | .ok packet => ({ s with pending := some (frame, packet) }, none)
    | .woken now accepted, some (frame, packet) =>
      if frame.expired now then
        ({ s with expiredFrames := s.expiredFrames + 1, pending := none }, none)
      else
        ({ s with pending := none, pacer := s.pacer.sent now CapturedFrame.duration },
          some ⟨now, (UdpAudioSender.datagrams s.sender.generation packet).take accepted⟩)
    | _, _ => (s, none)

/-- A session that was started at the given instant. -/
def machine (sender : UdpAudioSender) (bitrate : AudioBitrate) (start : Instant) :
    Machine (UdpSession F) (Input F) (Option Sent) :=
  ⟨new sender start, step bitrate⟩

/-- The instants of the sends of a run. -/
def sends (events : List (Event (UdpSession F) (Input F) (Option Sent))) : List Instant :=
  (events.filterMap Event.output).map Sent.now

/-- The sleep of the session ends no earlier than its deadline. -/
def SleepsUntil (s : UdpSession F) : Input F → Prop
  | .woken now _ => s.pacer.deadline ≤ now
  | _ => True

/-- A round either leaves the pacer alone, or it sends a frame and tells the pacer. -/
theorem step_cases (bitrate : AudioBitrate) (s : UdpSession F) (i : Input F) :
    ((step bitrate s i).2 = none ∧ (step bitrate s i).1.pacer = s.pacer) ∨
      ∃ now accepted sent, i = .woken now accepted ∧ (step bitrate s i).2 = some sent ∧
        sent.now = now ∧
        (step bitrate s i).1.pacer = s.pacer.sent now CapturedFrame.duration := by
  unfold step
  split
  · exact .inl ⟨rfl, rfl⟩
  · split
    · exact .inl ⟨rfl, rfl⟩
    · split
      · exact .inl ⟨rfl, rfl⟩
      · split <;> exact .inl ⟨rfl, rfl⟩
    · next now accepted _ _ _ =>
      split
      · exact .inl ⟨rfl, rfl⟩
      · exact .inr ⟨now, accepted, _, rfl, rfl, rfl, rfl⟩
    · exact .inl ⟨rfl, rfl⟩

omit [Binary32 F] [SampleBytes F] in
theorem sends_concat (events : List (Event (UdpSession F) (Input F) (Option Sent)))
    (e : Event (UdpSession F) (Input F) (Option Sent)) :
    sends (events ++ [e]) = sends events ++ (e.output.map Sent.now).toList := by
  rw [sends, List.filterMap_append, List.map_append]
  cases hout : e.output with
  | none => simp [sends, hout]
  | some sent => simp [sends, hout]

/-- The sends of a session whose sleeps end no earlier than their deadlines are those of a
pacer, and they wait for its deadlines. -/
theorem awaited_of_run (sender : UdpAudioSender) (bitrate : AudioBitrate) (start : Instant)
    (inputs : List (Input F))
    (hsleeps : ∀ e ∈ (machine sender bitrate start).events inputs, e.before.SleepsUntil e.input) :
    PacketPacer.Awaited CapturedFrame.duration (.new start)
        (sends ((machine sender bitrate start).events inputs)) ∧
      ((machine sender bitrate start).run inputs).pacer =
        (PacketPacer.new start).sentAll CapturedFrame.duration
          (sends ((machine sender bitrate start).events inputs)) := by
  refine (machine sender bitrate start).history_invariant
    (I := fun events s => PacketPacer.Awaited CapturedFrame.duration (.new start) (sends events) ∧
      s.pacer = (PacketPacer.new start).sentAll CapturedFrame.duration (sends events))
    (p := fun _ e => e.before.SleepsUntil e.input) ⟨trivial, rfl⟩ ?_
    fun pre e post h => hsleeps e (by rw [h]; simp)
  rintro events s i ⟨hawaited, hpacer⟩ hsleep
  rw [sends_concat]
  obtain ⟨hout, hkept⟩ | ⟨now, accepted, sent, rfl, hout, rfl, hnext⟩ := step_cases bitrate s i
  · rw [Machine.eventAt_output, machine, hout, Option.map_none, Option.toList_none, List.append_nil]
    exact ⟨hawaited, hkept.trans hpacer⟩
  · rw [Machine.eventAt_output, machine, hout, Option.map_some, Option.toList_some]
    exact ⟨hawaited.concat (hpacer ▸ hsleep),
      hnext.trans (by rw [hpacer, PacketPacer.sentAll_concat])⟩

end UdpSession

end Gemacast.Streamer
