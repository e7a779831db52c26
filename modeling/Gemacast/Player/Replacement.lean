import Gemacast.Core.Machine
import Gemacast.Core.Table
import Gemacast.Jitter.Ledger
import Gemacast.Jitter.PlayheadBound
import Gemacast.Streamer.UdpAudioSender

/-!
# Replacing the encoder of a player

A player hears one encoder after the other, on captures that may have run for others before.
The senders number their packets by clock and capture position, and the player's buffer tells
from the numbers alone what is new. Between them the network may drop, repeat and reorder.
-/

set_option linter.unusedSectionVars false

namespace Gemacast.Player

open Gemacast.Core Gemacast.Jitter Gemacast.Streamer

/-- An encoder of the player. -/
structure TargetEncoder where
  /-- How many of the player's encoders were started before it. -/
  order : ℕ
  /-- Its sender. -/
  sender : UdpAudioSender
  /-- The positions of the frames it has yet to handle. -/
  frames : List UInt64
  deriving DecidableEq

/-- A packet on its way to the player. -/
structure SentPacket where
  /-- Which of the player's encoders sent it. -/
  order : ℕ
  /-- The capture of its frame. -/
  capture : ℕ
  /-- The base of its number. -/
  base : UInt64
  /-- The position of its frame. -/
  position : UInt64
  deriving DecidableEq

/-- The number of a packet. -/
def SentPacket.sequence (p : SentPacket) : UInt64 := p.base + p.position

/-- A packet as the player receives it. -/
def SentPacket.received (p : SentPacket) (raw : RawPacket) : RawPacket :=
  { raw with seqNum := p.sequence }

/-- The stream of one player, from the captures to its jitter buffer. -/
structure PlayerStream {F : Type} (C : Codec F) where
  /-- The position of the next frame of each capture. -/
  positions : ℕ → UInt64
  /-- The last generation given out. -/
  lastGeneration : UInt64
  /-- The clock when the last encoder of the player was started. -/
  clock : ℤ
  /-- How many encoders the player has had. -/
  started : ℕ
  /-- Its encoders by capture; while its source is being changed there are two. -/
  encoders : Table ℕ TargetEncoder
  /-- The packets sent to it, in order. -/
  sent : List SentPacket
  /-- One more than the last of them that has arrived. -/
  taken : ℕ
  /-- The player thread. -/
  player : JitterBufferManager C
  /-- What its buffer has taken since it last started afresh; read by no code. -/
  arrived : List SentPacket

namespace PlayerStream

variable {F : Type} [Binary32 F] [FrameMark F] {C : Codec F}

/-- One step of the stream. -/
inductive Step (F : Type)
  /-- An encoder is started on a capture, in the place of one that was there. -/
  | start (capture : ℕ) (now : ℤ)
  /-- The encoder on a capture is shut down or fails. -/
  | stop (capture : ℕ)
  /-- A sender of another player is started. -/
  | startOther (now : ℤ)
  /-- A capture hands out a frame. -/
  | captureFrame (capture : ℕ)
  /-- The encoder on a capture handles its next frame: it sends it, or drops it because it
  lags, is too old or cannot be sent. -/
  | handleFrame (capture : ℕ) (sends : Bool)
  /-- A packet arrives, with the payload and at the time of `raw`. -/
  | deliver (k : ℕ) (raw : RawPacket)
  /-- The player's device needs samples. -/
  | callback (tick : Tick F)
  /-- It takes samples. -/
  | consume (take : ℕ)
  /-- The player's stream is reset. -/
  | reset

/-- What a step comes to. -/
inductive Outcome
  | none
  | started (generation : UInt64)
  | inserted (packet : SentPacket) (result : InsertResult)
  deriving DecidableEq

/-- Nothing captured, sent or received. -/
def new (C : Codec F) (config : JitterConfig F) (networkLink : NetworkLink) (clock : Instant) :
    PlayerStream C where
  positions _ := 0
  lastGeneration := 0
  clock := 0
  started := 0
  encoders := ∅
  sent := []
  taken := 0
  player := .new C config networkLink clock
  arrived := []

/-- Start an encoder. -/
def startEncoder (s : PlayerStream C) (capture : ℕ) (now : ℤ) : PlayerStream C × Outcome :=
  let sender := UdpAudioSender.new s.lastGeneration now
  ({ s with
    lastGeneration := sender.generation
    clock := now
    started := s.started + 1
    encoders := s.encoders.insert capture ⟨s.started, sender, []⟩ }, .started sender.generation)

/-- Hand a frame to the encoder on its capture. -/
def captureOne (s : PlayerStream C) (capture : ℕ) : PlayerStream C :=
  { s with
    positions := Function.update s.positions capture (s.positions capture + 1)
    encoders :=
      match s.encoders.lookup capture with
      | some e => s.encoders.insert capture
          { e with frames := e.frames ++ [s.positions capture] }
      | none => s.encoders }

/-- Handle the next frame of an encoder. -/
def handleOne (s : PlayerStream C) (capture : ℕ) (sends : Bool) : PlayerStream C :=
  match s.encoders.lookup capture with
  | some { order, sender, frames := position :: frames } =>
    { s with
      encoders := s.encoders.insert capture ⟨order, sender, frames⟩
      sent :=
        if sends then s.sent ++ [⟨order, capture, sender.sequenceBase, position⟩] else s.sent }
  | _ => s

/-- What the buffer has taken after one more insertion. -/
def arrivedAfter (arrived : List SentPacket) (p : SentPacket) : InsertResult → List SentPacket
  | .accepted => p :: arrived
  | .stale => arrived
  | .streamRestarted => [p]

/-- The player takes a packet; one that the statistics reject does not reach the buffer. -/
def take (s : PlayerStream C) (k : ℕ) (p : SentPacket) (raw : RawPacket) :
    PlayerStream C × Outcome :=
  let pkt := p.received raw
  let s' := { s with taken := max s.taken (k + 1), player := s.player.ingestPacket pkt }
  if (s.player.stats.observe pkt.seqNum pkt.arrivalTime).2 then
    let result := (s.player.buffer.insert pkt).2
    ({ s' with arrived := arrivedAfter s.arrived p result }, .inserted p result)
  else (s', .none)

/-- The player thread goes on; a buffer that was reset has taken nothing. -/
def play (s : PlayerStream C) (i : JitterBufferManager.Input F) : PlayerStream C :=
  let player := (s.player.step i).1
  { s with
    player
    arrived := if player.buffer.initialized then s.arrived else [] }

/-- One step. -/
def step (s : PlayerStream C) : Step F → PlayerStream C × Outcome
  | .start capture now => s.startEncoder capture now
  | .stop capture => ({ s with encoders := s.encoders.erase capture }, .none)
  | .startOther now =>
    ({ s with lastGeneration := (UdpAudioSender.new s.lastGeneration now).generation }, .none)
  | .captureFrame capture => (s.captureOne capture, .none)
  | .handleFrame capture sends => (s.handleOne capture sends, .none)
  | .deliver k raw =>
    match s.sent[k]? with
    | some p => s.take k p raw
    | none => (s, .none)
  | .callback tick => (s.play (.callback tick), .none)
  | .consume take => (s.play (.consume take), .none)
  | .reset => (s.play .reset, .none)

/-- The stream as a machine. -/
def machine (C : Codec F) (config : JitterConfig F) (networkLink : NetworkLink)
    (clock : Instant) : Machine (PlayerStream C) (Step F) Outcome where
  init := new C config networkLink clock
  step := step

/-! ### What is to hold -/

/-- No packet of a later encoder was sent before the packet. -/
def Current (s : PlayerStream C) (k : ℕ) (p : SentPacket) : Prop :=
  s.sent[k]? = some p ∧ ∀ j < k, ∀ q ∈ s.sent[j]?, q.order ≤ p.order

/-- The packet arrives in order: nothing sent after it has arrived. -/
def InOrder (s : PlayerStream C) (k : ℕ) (p : SentPacket) : Prop :=
  s.Current k p ∧ s.taken ≤ k

/-- A packet that arrives in order is not taken for a stale one. -/
def Reaches (e : Event (PlayerStream C) (Step F) Outcome) : Prop :=
  ∀ k raw p, e.input = .deliver k raw → e.before.InOrder k p → e.output ≠ .inserted p .stale

/-- The generation of the encoder a step starts. -/
def startedGeneration (e : Event (PlayerStream C) (Step F) Outcome) : Option UInt64 :=
  match e.output with
  | .started generation => some generation
  | _ => none

/-! ### Which steps are orderly -/

/-- A packet is above what has arrived of other captures since the buffer started afresh, or
too far behind the playhead to be stale. -/
def Clear (s : PlayerStream C) (p : SentPacket) : Prop :=
  (∀ q ∈ s.arrived, q.capture ≠ p.capture → q.sequence < p.sequence) ∨
    p.sequence.toNat + bufferCapacity < s.player.buffer.playhead

/-- A step is orderly: the clock is not set back, no number of a packet runs over, and what
arrives in order is clear of what came from other captures. -/
def Orderly (s : PlayerStream C) : Step F → Prop
  | .start _ now => s.clock ≤ now ∧ sinceEpoch now / 1000 < 2 ^ 64
  | .captureFrame capture => s.positions capture ≠ -1
  | .handleFrame capture _ => ∀ e ∈ s.encoders.lookup capture, ∀ position ∈ e.frames.head?,
      e.sender.sequenceBase.toNat + position.toNat + bufferCapacity < 2 ^ 64
  | .deliver k _ => ∀ p ∈ s.sent[k]?, s.InOrder k p → s.Clear p
  | _ => True

instance (s : PlayerStream C) (k : ℕ) (p : SentPacket) : Decidable (s.InOrder k p) :=
  inferInstanceAs (Decidable ((s.sent[k]? = some p ∧ _) ∧ _))

instance (s : PlayerStream C) (p : SentPacket) : Decidable (s.Clear p) :=
  inferInstanceAs (Decidable (_ ∨ _))

/-- Decided by a look at the head of the queue, not by a search among all positions. -/
instance {p : UInt64 → Prop} [DecidablePred p] (frames : List UInt64) :
    Decidable (∀ position ∈ frames.head?, p position) :=
  Option.decidableForallMem _

instance (s : PlayerStream C) : DecidablePred s.Orderly
  | .start _ _ => inferInstanceAs (Decidable (_ ∧ _))
  | .captureFrame _ => inferInstanceAs (Decidable (_ ≠ _))
  | .handleFrame _ _ => inferInstanceAs (Decidable (∀ e ∈ s.encoders.lookup _, _))
  | .deliver _ _ => inferInstanceAs (Decidable (∀ p ∈ s.sent[_]?, _))
  | .stop _ | .startOther _ | .callback _ | .consume _ | .reset => isTrue trivial

/-! ### What holds over orderly runs -/

/-- What holds in every state of an orderly run. -/
structure Ordered (s : PlayerStream C) : Prop where
  /-- The buffer has not gone past what it has taken. -/
  within : ∀ K, (∀ q ∈ s.arrived, q.sequence.toNat < K) → s.player.buffer.Within K
  /-- What has arrived was sent. -/
  arrived : ∀ q ∈ s.arrived, ∃ j < s.taken, s.sent[j]? = some q
  /-- The numbers of a capture rise in the order of sending. -/
  rising : s.sent.Pairwise fun q p => q.capture = p.capture → q.sequence.toNat < p.sequence.toNat
  /-- A packet sent has a base the clock has reached and lies before what its capture has yet
  to hand out; its number has not run over. -/
  sent : ∀ q ∈ s.sent, q.base ≤ (UdpAudioSender.new 0 s.clock).sequenceBase ∧
    q.position < s.positions q.capture ∧
      q.base.toNat + q.position.toNat + bufferCapacity < 2 ^ 64
  /-- An encoder has a base the clock has reached, and not a lower one than the packets of its
  capture. -/
  base : ∀ c e, s.encoders.lookup c = some e →
    e.sender.sequenceBase ≤ (UdpAudioSender.new 0 s.clock).sequenceBase ∧
      ∀ q ∈ s.sent, q.capture = c → q.base ≤ e.sender.sequenceBase
  /-- Its frames rise, from after those sent to before the next one. -/
  frames : ∀ c e, s.encoders.lookup c = some e → e.frames.Pairwise (· < ·) ∧
    ∀ position ∈ e.frames, position < s.positions c ∧
      ∀ q ∈ s.sent, q.capture = c → q.position < position
  /-- The clock fits the numbers. -/
  clock : sinceEpoch s.clock / 1000 < 2 ^ 64

variable {s : PlayerStream C} {config : JitterConfig F} {networkLink : NetworkLink}
  {clock : Instant}

theorem ordered_new : (new C config networkLink clock).Ordered where
  within _ _ := .new
  arrived := nofun
  rising := .nil
  sent := nofun
  base := nofun
  frames := nofun
  clock := (by decide : sinceEpoch 0 / 1000 < 2 ^ 64)

/-- The number of a packet whose number has not run over. -/
theorem toNat_sequence {q : SentPacket}
    (h : q.base.toNat + q.position.toNat + bufferCapacity < 2 ^ 64) :
    q.sequence.toNat = q.base.toNat + q.position.toNat :=
  toNat_add_of_lt (by omega)

/-- An encoder is started. -/
theorem Ordered.startEncoder (h : s.Ordered) {capture : ℕ} {now : ℤ} (hle : s.clock ≤ now)
    (hfit : sinceEpoch now / 1000 < 2 ^ 64) : (s.startEncoder capture now).1.Ordered := by
  have hbase : ∀ last, (UdpAudioSender.new 0 s.clock).sequenceBase ≤
      (UdpAudioSender.new last now).sequenceBase := fun last => sequenceBase_mono hle hfit
  have hlookup : ∀ c e, (s.startEncoder capture now).1.encoders.lookup c = some e →
      c = capture ∧ e = ⟨s.started, UdpAudioSender.new s.lastGeneration now, []⟩ ∨
        s.encoders.lookup c = some e := by
    intro c e he
    have he' := Table.lookup_insert_eq.symm.trans he
    split at he'
    · next heq => exact .inl ⟨heq, (Option.some.inj he').symm⟩
    · exact .inr he'
  refine ⟨h.within, h.arrived, h.rising, fun q hq => ?_, fun c e he => ?_, fun c e he => ?_, hfit⟩
  · obtain ⟨hq1, hq2⟩ := h.sent q hq
    exact ⟨UInt64.le_trans hq1 (hbase 0), hq2⟩
  · obtain ⟨rfl, rfl⟩ | hold := hlookup c e he
    · exact ⟨UInt64.le_refl _, fun q hq _ => UInt64.le_trans (h.sent q hq).1 (hbase _)⟩
    · obtain ⟨he1, he2⟩ := h.base c e hold
      exact ⟨UInt64.le_trans he1 (hbase 0), he2⟩
  · obtain ⟨rfl, rfl⟩ | hold := hlookup c e he
    · exact ⟨.nil, nofun⟩
    · exact h.frames c e hold

/-- An encoder is gone. -/
theorem Ordered.stop (h : s.Ordered) (capture : ℕ) :
    Ordered { s with encoders := s.encoders.erase capture } := by
  have hlookup : ∀ c e, (s.encoders.erase capture).lookup c = some e →
      s.encoders.lookup c = some e := by
    intro c e he
    rw [Table.lookup_erase_eq] at he
    split at he
    · cases he
    · exact he
  exact ⟨h.within, h.arrived, h.rising, h.sent, fun c e he => h.base c e (hlookup c e he),
    fun c e he => h.frames c e (hlookup c e he), h.clock⟩

/-- A capture hands out a frame. -/
theorem Ordered.captureOne (h : s.Ordered) {capture : ℕ} (hroom : s.positions capture ≠ -1) :
    (s.captureOne capture).Ordered := by
  have hup : ∀ c position, position < s.positions c →
      position < (s.captureOne capture).positions c := by
    intro c position hlt
    change position < Function.update s.positions capture (s.positions capture + 1) c
    by_cases heq : c = capture
    · subst heq
      rw [Function.update_self]
      exact UInt64.lt_trans hlt (lt_add_one hroom)
    · rwa [Function.update_of_ne heq]
  have hlookup : ∀ c e, (s.captureOne capture).encoders.lookup c = some e →
      (∃ e', c = capture ∧ s.encoders.lookup capture = some e' ∧
        e = { e' with frames := e'.frames ++ [s.positions capture] }) ∨
        s.encoders.lookup c = some e := by
    intro c e he
    unfold PlayerStream.captureOne at he
    dsimp only at he
    split at he
    · next e' he' =>
      rw [Table.lookup_insert_eq] at he
      split at he
      · next heq => exact .inl ⟨e', heq, he', (Option.some.inj he).symm⟩
      · exact .inr he
    · exact .inr he
  refine ⟨h.within, h.arrived, h.rising, fun q hq => ?_, fun c e he => ?_,
    fun c e he => ?_, h.clock⟩
  · obtain ⟨hq1, hq2, hq3⟩ := h.sent q hq
    exact ⟨hq1, hup _ _ hq2, hq3⟩
  · obtain ⟨e', rfl, he', rfl⟩ | hold := hlookup c e he
    · exact h.base c e' he'
    · exact h.base c e hold
  · obtain ⟨e', rfl, he', rfl⟩ | hold := hlookup c e he
    · obtain ⟨hpairwise, hframes⟩ := h.frames c e' he'
      refine ⟨List.pairwise_append.mpr ⟨hpairwise, List.pairwise_singleton _ _, ?_⟩, ?_⟩
      · intro position hposition last hlast
        obtain rfl := List.mem_singleton.mp hlast
        exact (hframes position hposition).1
      · intro position hposition
        obtain hposition | hposition := List.mem_append.mp hposition
        · exact ⟨hup _ _ (hframes position hposition).1, (hframes position hposition).2⟩
        · obtain rfl := List.mem_singleton.mp hposition
          refine ⟨?_, fun q hq hcapture => ?_⟩
          · change _ < Function.update s.positions c (s.positions c + 1) c
            rw [Function.update_self]
            exact lt_add_one hroom
          · exact hcapture ▸ (h.sent q hq).2.1
    · obtain ⟨hpairwise, hframes⟩ := h.frames c e hold
      exact ⟨hpairwise, fun position hposition =>
        ⟨hup _ _ (hframes position hposition).1, (hframes position hposition).2⟩⟩

/-- An encoder handles its next frame. -/
theorem Ordered.handleOne (h : s.Ordered) {capture : ℕ} {sends : Bool}
    (hroom : s.Orderly (.handleFrame capture sends)) : (s.handleOne capture sends).Ordered := by
  unfold PlayerStream.handleOne
  split
  · next order sender position frames he =>
    have hfit := hroom _ he position rfl
    obtain ⟨hbase, hbelow⟩ := h.base capture _ he
    obtain ⟨hpairwise, hframes⟩ := h.frames capture _ he
    obtain ⟨hhead, htail⟩ := List.pairwise_cons.mp hpairwise
    obtain ⟨hposition, hsent⟩ := hframes position List.mem_cons_self
    have hlookup : ∀ c e, (s.encoders.insert capture ⟨order, sender, frames⟩).lookup c = some e →
        c = capture ∧ e = ⟨order, sender, frames⟩ ∨ c ≠ capture ∧ s.encoders.lookup c = some e := by
      intro c e hc
      rw [Table.lookup_insert_eq] at hc
      split at hc
      · next heq => exact .inl ⟨heq, (Option.some.inj hc).symm⟩
      · next hne => exact .inr ⟨hne, hc⟩
    have hdropped : ∀ c e, (s.encoders.insert capture ⟨order, sender, frames⟩).lookup c = some e →
        (e.frames.Pairwise (· < ·) ∧ ∀ position ∈ e.frames, position < s.positions c ∧
          ∀ q ∈ s.sent, q.capture = c → q.position < position) ∧
        (e.sender.sequenceBase ≤ (UdpAudioSender.new 0 s.clock).sequenceBase ∧
          ∀ q ∈ s.sent, q.capture = c → q.base ≤ e.sender.sequenceBase) := by
      intro c e hc
      obtain ⟨rfl, rfl⟩ | ⟨-, hc⟩ := hlookup c e hc
      · exact ⟨⟨htail, fun p hp => hframes p (List.mem_cons_of_mem _ hp)⟩, hbase, hbelow⟩
      · exact ⟨h.frames c e hc, h.base c e hc⟩
    cases sends with
    | false =>
      exact ⟨h.within, h.arrived, h.rising, h.sent, fun c e hc => (hdropped c e hc).2,
        fun c e hc => (hdropped c e hc).1, h.clock⟩
    | true =>
      refine ⟨h.within, fun q hq => ?_, ?_, fun q hq => ?_, fun c e hc => ?_, fun c e hc => ?_,
        h.clock⟩
      · obtain ⟨j, hj, hget⟩ := h.arrived q hq
        refine ⟨j, hj, ?_⟩
        rw [if_pos rfl, List.getElem?_append_left (List.getElem?_eq_some_iff.mp hget).1]
        exact hget
      · rw [if_pos rfl]
        refine List.pairwise_append.mpr ⟨h.rising, List.pairwise_singleton _ _, ?_⟩
        intro q hq p hp hcapture
        obtain rfl := List.mem_singleton.mp hp
        rw [toNat_sequence (h.sent q hq).2.2, toNat_sequence hfit]
        have hle := UInt64.le_iff_toNat_le.mp (hbelow q hq hcapture)
        have hlt := UInt64.lt_iff_toNat_lt.mp (hsent q hq hcapture)
        exact Nat.add_lt_add_of_le_of_lt hle hlt
      · obtain hq | hq := List.mem_append.mp hq
        · exact h.sent q hq
        · obtain rfl := List.mem_singleton.mp hq
          exact ⟨hbase, hposition, hfit⟩
      · obtain ⟨-, hle, hsame⟩ := hdropped c e hc
        refine ⟨hle, fun q hq hcapture => ?_⟩
        obtain hq | hq := List.mem_append.mp hq
        · exact hsame q hq hcapture
        · obtain rfl := List.mem_singleton.mp hq
          obtain ⟨-, rfl⟩ | ⟨hne, -⟩ := hlookup c e hc
          · exact UInt64.le_refl _
          · exact absurd hcapture.symm hne
      · obtain ⟨⟨hrise, hall⟩, -⟩ := hdropped c e hc
        refine ⟨hrise, fun p hp => ⟨(hall p hp).1, fun q hq hcapture => ?_⟩⟩
        obtain hq | hq := List.mem_append.mp hq
        · exact (hall p hp).2 q hq hcapture
        · obtain rfl := List.mem_singleton.mp hq
          obtain ⟨-, rfl⟩ | ⟨hne, -⟩ := hlookup c e hc
          · exact hhead p hp
          · exact absurd hcapture.symm hne
  · exact h

/-- A packet in order that is clear of other captures lies above all that has arrived, or too far
behind the playhead to be stale. -/
theorem Ordered.not_isStale (h : s.Ordered) {k : ℕ} {p : SentPacket} (raw : RawPacket)
    (horder : s.InOrder k p) (hclear : s.Clear p) :
    ¬s.player.buffer.IsStale (p.received raw) := by
  obtain ⟨⟨hget, -⟩, htaken⟩ := horder
  obtain hothers | hfar := hclear
  · refine (h.within p.sequence.toNat fun q hq => ?_).not_isStale le_rfl
    by_cases hcapture : q.capture = p.capture
    · obtain ⟨j, hj, hget'⟩ := h.arrived q hq
      obtain ⟨hj', rfl⟩ := List.getElem?_eq_some_iff.mp hget'
      obtain ⟨hk', rfl⟩ := List.getElem?_eq_some_iff.mp hget
      exact List.pairwise_iff_getElem.mp h.rising j k hj' hk' (by omega) hcapture
    · exact UInt64.lt_iff_toNat_lt.mp (hothers q hq hcapture)
  · rintro ⟨-, -, hle⟩
    exact absurd hle (Nat.not_le.mpr hfar)

/-- A packet arrives. -/
theorem Ordered.take (h : s.Ordered) {k : ℕ} {p : SentPacket} (raw : RawPacket)
    (hget : s.sent[k]? = some p) : (s.take k p raw).1.Ordered := by
  have hfit : (p.received raw).seq + bufferCapacity < 2 ^ 64 := by
    have hsent := (h.sent p (List.mem_of_getElem? hget)).2.2
    change p.sequence.toNat + _ < _
    rw [toNat_sequence hsent]
    exact hsent
  have harrived : ∀ q ∈ s.arrived, ∃ j < max s.taken (k + 1), s.sent[j]? = some q := by
    intro q hq
    obtain ⟨j, hj, hget'⟩ := h.arrived q hq
    exact ⟨j, lt_max_of_lt_left hj, hget'⟩
  have hitself : ∃ j < max s.taken (k + 1), s.sent[j]? = some p :=
    ⟨k, lt_max_of_lt_right (Nat.lt_succ_self k), hget⟩
  have hbuffer := s.player.ingestPacket_buffer (p.received raw)
  unfold PlayerStream.take
  dsimp only
  split
  · next hobserved =>
    rw [if_pos hobserved] at hbuffer
    obtain ⟨-, heq⟩ | ⟨hrestart, heq⟩ | ⟨-, -, heq⟩ := s.player.buffer.insert_cases (p.received raw)
    · rw [heq] at hbuffer ⊢
      exact ⟨fun K hK => hbuffer ▸ h.within K hK, harrived, h.rising, h.sent, h.base, h.frames,
        h.clock⟩
    · have hwithin := JitterBuffer.Within.insert_restart hfit hrestart
      rw [heq] at hbuffer hwithin ⊢
      refine ⟨fun K hK => ?_, fun q hq => ?_, h.rising, h.sent, h.base, h.frames, h.clock⟩
      · dsimp only
        rw [hbuffer]
        exact hwithin.mono (hK p List.mem_cons_self)
      · obtain rfl := List.mem_singleton.mp hq
        exact hitself
    · have hwithin := fun K (hK : ∀ q ∈ p :: s.arrived, q.sequence.toNat < K) =>
        (h.within K fun q hq => hK q (List.mem_cons_of_mem _ hq)).insert hfit
          (hK p List.mem_cons_self)
      rw [heq] at hbuffer hwithin ⊢
      refine ⟨fun K hK => ?_, fun q hq => ?_, h.rising, h.sent, h.base, h.frames, h.clock⟩
      · dsimp only
        rw [hbuffer]
        exact hwithin K hK
      · obtain rfl | hq := List.mem_cons.mp hq
        · exact hitself
        · exact harrived q hq
  · next hrejected =>
    rw [if_neg hrejected] at hbuffer
    exact ⟨fun K hK => hbuffer ▸ h.within K hK, harrived, h.rising, h.sent, h.base, h.frames,
      h.clock⟩

/-- The player thread goes on. -/
theorem Ordered.play (h : s.Ordered) {i : JitterBufferManager.Input F}
    (hstep : ∀ K, s.player.buffer.Within K → (s.player.step i).1.buffer.Within K) :
    (s.play i).Ordered := by
  refine ⟨fun K hK => ?_, fun q hq => ?_, h.rising, h.sent, h.base, h.frames, h.clock⟩
  · cases hi : (s.player.step i).1.buffer.initialized with
    | true =>
      refine hstep K (h.within K fun q hq => hK q ?_)
      simp only [PlayerStream.play, hi, if_true]
      exact hq
    | false =>
      -- some bound holds whatever has arrived
      refine (hstep (2 ^ 64)
        (h.within (2 ^ 64) fun q _ => q.sequence.toNat_lt)).of_not_initialized hi
  · refine h.arrived q ?_
    simp only [PlayerStream.play] at hq
    split at hq
    · exact hq
    · cases hq

/-- An orderly step keeps the invariant. -/
theorem Ordered.step (h : s.Ordered) {i : Step F} (hok : s.Orderly i) : (s.step i).1.Ordered := by
  cases i with
  | start capture now => exact h.startEncoder hok.1 hok.2
  | stop capture => exact h.stop capture
  | startOther now =>
    exact ⟨h.within, h.arrived, h.rising, h.sent, h.base, h.frames, h.clock⟩
  | captureFrame capture => exact h.captureOne hok
  | handleFrame capture sends => exact h.handleOne hok
  | deliver k raw =>
    simp only [PlayerStream.step]
    split
    · next p hget => exact h.take raw hget
    · exact h
  | callback tick =>
    refine h.play fun K hK => ?_
    unfold JitterBufferManager.step
    dsimp only
    split
    · exact JitterBufferManager.processNextFrame_within (m := { s.player with emissions := [] }) hK
        tick
    · exact hK
  | consume take => exact h.play fun K hK => hK
  | reset => exact h.play fun K hK => JitterBuffer.Within.reset (b := s.player.buffer)

/-! ### Generations -/

/-- Unless the counter runs over, no step lowers the last generation, and one that starts an
encoder raises it to that of the encoder. -/
theorem lastGeneration_step (hroom : s.lastGeneration ≠ -1) (i : Step F) :
    s.lastGeneration ≤ (s.step i).1.lastGeneration ∧
      ∀ generation, (s.step i).2 = .started generation →
        s.lastGeneration < generation ∧ (s.step i).1.lastGeneration = generation := by
  have hsame : ∀ answer : PlayerStream C × Outcome,
      answer.1.lastGeneration = s.lastGeneration → (∀ generation, answer.2 ≠ .started generation) →
        s.lastGeneration ≤ answer.1.lastGeneration ∧ ∀ generation, answer.2 = .started generation →
          s.lastGeneration < generation ∧ answer.1.lastGeneration = generation := by
    intro answer hlast hstarted
    exact ⟨hlast ▸ UInt64.le_refl _, fun generation heq => absurd heq (hstarted generation)⟩
  cases i with
  | start capture now =>
    have hlt := lt_nextSenderGeneration hroom (sinceEpoch now)
    refine ⟨UInt64.le_of_lt hlt, fun generation heq => ?_⟩
    obtain rfl := Outcome.started.inj heq
    exact ⟨hlt, rfl⟩
  | startOther now =>
    exact ⟨UInt64.le_of_lt (lt_nextSenderGeneration hroom (sinceEpoch now)), nofun⟩
  | handleFrame capture sends =>
    refine hsame _ ?_ nofun
    simp only [PlayerStream.step, handleOne]
    split <;> rfl
  | deliver k raw =>
    simp only [PlayerStream.step]
    split
    · unfold PlayerStream.take
      dsimp only
      split <;> exact hsame _ rfl nofun
    · exact hsame _ rfl nofun
  | stop | captureFrame | callback | consume | reset => exact hsame _ rfl nofun

/-! ### Whole runs -/

/-- In an orderly state a packet that arrives in order reaches the player. -/
theorem Ordered.reaches (h : s.Ordered) {i : Step F} (hok : s.Orderly i) :
    Reaches ((machine C config networkLink clock).eventAt s i) := by
  rintro k raw p rfl horder
  have hstale := h.not_isStale raw horder (hok p horder.1.1 horder)
  change (s.step (.deliver k raw)).2 ≠ _
  have hget : s.sent[k]? = some p := horder.1.1
  simp only [PlayerStream.step, hget, PlayerStream.take]
  split
  · intro heq
    obtain ⟨hs, -⟩ | ⟨-, hinsert⟩ | ⟨-, -, hinsert⟩ :=
      s.player.buffer.insert_cases (p.received raw)
    · exact hstale hs
    · rw [hinsert] at heq
      nomatch heq
    · rw [hinsert] at heq
      nomatch heq
  · nofun

/-- In every run the generations of the encoders rise, whatever the clock, as long as the counter
does not run over. -/
theorem generations_rise {steps : List (Step F)}
    (hroom : ∀ e ∈ (machine C config networkLink clock).events steps,
      e.before.lastGeneration ≠ -1) :
    (((machine C config networkLink clock).events steps).filterMap startedGeneration).Pairwise
      (· < ·) := by
  refine ((machine C config networkLink clock).history_invariant
    (I := fun pre s => (pre.filterMap startedGeneration).Pairwise (· < ·) ∧
      ∀ g ∈ pre.filterMap startedGeneration, g ≤ s.lastGeneration)
    (p := fun _ e => e.before.lastGeneration ≠ -1) ⟨.nil, nofun⟩ ?_ ?_).1
  · rintro pre s i ⟨hpairwise, hle⟩ hroom
    obtain ⟨hmono, hstart⟩ := lastGeneration_step hroom i
    have hkept : ∀ g ∈ pre.filterMap startedGeneration, g ≤ (s.step i).1.lastGeneration :=
      fun g hg => UInt64.le_trans (hle g hg) hmono
    rw [List.filterMap_append]
    cases hstarted : startedGeneration ((machine C config networkLink clock).eventAt s i) with
    | none =>
      rw [List.filterMap_cons_none hstarted, List.filterMap_nil, List.append_nil]
      exact ⟨hpairwise, hkept⟩
    | some generation =>
      obtain ⟨hlt, hlast⟩ := hstart generation (by
        unfold startedGeneration at hstarted
        split at hstarted
        · next heq => exact Option.some.inj hstarted ▸ heq
        · cases hstarted)
      rw [List.filterMap_cons_some hstarted, List.filterMap_nil]
      refine ⟨List.pairwise_append.mpr ⟨hpairwise, List.pairwise_singleton _ _, ?_⟩, ?_⟩
      · intro g hg g' hg'
        obtain rfl := List.mem_singleton.mp hg'
        exact UInt64.lt_of_le_of_lt (hle g hg) hlt
      · intro g hg
        obtain hg | hg := List.mem_append.mp hg
        · exact hkept g hg
        · obtain rfl := List.mem_singleton.mp hg
          exact hlast ▸ UInt64.le_refl _
  · intro pre e post hsplit
    exact hroom e (hsplit ▸ List.mem_append_right _ List.mem_cons_self)

/-- In an orderly run every packet of the encoder in place that arrives in order is taken as new or
as a restart; and unless the counter runs over, the generations of the encoders rise in every
run. -/
theorem reaches_of_run (steps : List (Step F)) :
    ((∀ e ∈ (machine C config networkLink clock).events steps, e.before.Orderly e.input) →
      ∀ e ∈ (machine C config networkLink clock).events steps, Reaches e) ∧
    ((∀ e ∈ (machine C config networkLink clock).events steps, e.before.lastGeneration ≠ -1) →
      (((machine C config networkLink clock).events steps).filterMap
        startedGeneration).Pairwise (· < ·)) := by
  refine ⟨fun hok e he => ?_, generations_rise⟩
  have hordered := (((machine C config networkLink clock).invariant ordered_new
    (fun _ _ h hok => h.step hok) hok).1 e he).1
  rw [(machine C config networkLink clock).eq_eventAt_of_mem he]
  exact hordered.reaches (hok e he)

/-- A player thread with a policy that starts with the first packet. -/
def exampleMachine : Machine (PlayerStream (Codec.unfed SoftFloat)) (Step SoftFloat) Outcome :=
  machine (Codec.unfed SoftFloat) JitterBufferManager.eagerConfig .ethernet 0

/-- A packet is sent on a capture that has handed out `n` frames for others, and arrives. -/
def sendOne (capture n k : ℕ) (now : ℤ) : List (Step SoftFloat) :=
  List.replicate n (.captureFrame capture) ++ [.start capture now, .captureFrame capture,
    .handleFrame capture true, .deliver k (.silent 0 k)]

/-- An encoder on a capture that has run, and a second later one on a fresh capture. -/
def lateReplacement : List (Step SoftFloat) := sendOne 0 5 0 1000000 ++ sendOne 1 0 1 2000000

theorem reaches_of_run_lateReplacement :
    (∀ e ∈ exampleMachine.events lateReplacement, Reaches e) ∧
      ((exampleMachine.events lateReplacement).filterMap startedGeneration).Pairwise (· < ·) := by
  obtain ⟨hreaches, hrise⟩ := @reaches_of_run SoftFloat _ _ (Codec.unfed SoftFloat)
    JitterBufferManager.eagerConfig .ethernet 0 lateReplacement
  exact ⟨hreaches (by decide +kernel), hrise (by decide +kernel)⟩

/-- The encoder on a fresh capture comes a millisecond later. -/
def earlyReplacement : List (Step SoftFloat) := sendOne 0 5 0 1000000 ++ sendOne 1 0 1 1001000

/-- The clock goes forward and no number runs over, and the first packet of the replacement is
stale. -/
theorem not_reaches_earlyReplacement :
    ∃ e ∈ exampleMachine.events earlyReplacement, ¬Reaches e := by
  have hsplit : exampleMachine.events (earlyReplacement.dropLast ++ [.deliver 1 (.silent 0 1)]) =
      exampleMachine.events earlyReplacement.dropLast ++
        [exampleMachine.eventAt (exampleMachine.run earlyReplacement.dropLast)
          (.deliver 1 (.silent 0 1))] := exampleMachine.events_concat _ _
  refine ⟨_, hsplit ▸ List.mem_append_right _ List.mem_cons_self, fun h => ?_⟩
  exact h 1 (.silent 0 1) ⟨1, 1, 1001, 0⟩ rfl (by decide +kernel) (by decide +kernel)

end PlayerStream

end Gemacast.Player
