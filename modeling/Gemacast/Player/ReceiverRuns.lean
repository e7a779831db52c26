import Gemacast.Player.PcmReassembly
import Gemacast.Player.Receiver

/-!
# Runs of the receive thread

The thread looks at the received bytes only, and over a run it calls the reassembly
table with the chunks it takes out of them, in the order of their arrival.
-/

namespace Gemacast.Player

open Gemacast.Core Gemacast.Jitter

namespace PacketReceiver

/-- The source is accepted. -/
def Accepts (allowed : Option IpAddr) (source : IpAddr) : Prop :=
  (allowed.any fun a => a ≠ source) = false

instance (allowed : Option IpAddr) (source : IpAddr) : Decidable (Accepts allowed source) :=
  inferInstanceAs (Decidable (_ = _))

/-- The chunk the loop takes out of what it receives, with its arrival. -/
def chunkOf (allowed : Option IpAddr) : Reception → Option Arrival
  | .timeout _ => none
  | .datagram bytes source _ now =>
    let received := bytes.take recvBufferLen
    if Accepts allowed source ∧ EchoPacket.isEcho received received.length = false ∧
        received[seqNumSize]? = some PcmDatagram.format then
      match PcmDatagram.decode received with
      | .error _ => none
      | .ok chunk => some (chunk, now)
    else none

/-- What one pass of the loop calls on the reassembly table. -/
def callsOf (allowed : Option IpAddr) (x : Reception) : List PcmAssembly.Call :=
  .expire x.polled :: (chunkOf allowed x).toList.map fun c => .push c.1 c.2

section Poll

variable {r : PacketReceiver} {bytes received : List UInt8} {source : IpAddr}
  {polled now : Instant} {len : ℕ}

/-- The received bytes stand at the front of the buffer. -/
theorem receive_take :
    (r.receive bytes).recvBuff.val.take (bytes.take recvBufferLen).length =
      bytes.take recvBufferLen := by
  have h := overwrite_zero_take r.recvBuff.val bytes
  rwa [r.recvBuff.2] at h

/-- What is read within the received bytes is read from them. -/
theorem isEcho_take (h : r.recvBuff.val.take received.length = received) :
    EchoPacket.isEcho r.recvBuff.val received.length =
      EchoPacket.isEcho received received.length := by
  have hle : received.length ≤ r.recvBuff.val.length := by
    rw [← h, List.length_take]
    exact Nat.min_le_right _ _
  by_cases hlen : received.length = EchoPacket.packetLen
  · have htwo : received.take 2 = r.recvBuff.val.take 2 := by
      rw [← h, List.take_take, hlen]
      rfl
    rw [EchoPacket.isEcho, EchoPacket.isEcho, htwo, ← hlen]
    simp [hle]
  · simp [EchoPacket.isEcho, hlen]

/-- The decoder reads the received bytes only. -/
theorem decode_take (h : r.recvBuff.val.take received.length = received) :
    AudioPacketDecoder.decode r.recvBuff.val received.length now =
      AudioPacketDecoder.decode received received.length now := by
  have hle : received.length ≤ r.recvBuff.val.length := by
    rw [← h, List.length_take]
    exact Nat.min_le_right _ _
  by_cases hshort : received.length < headerLen
  · rw [AudioPacketDecoder.decode, AudioPacketDecoder.decode, if_pos hshort, if_pos hshort]
  · have hseq : seqNumSize < received.length :=
      Nat.lt_of_lt_of_le (by decide) (Nat.le_of_not_lt hshort)
    have hbytes : received.take seqNumSize = r.recvBuff.val.take seqNumSize := by
      conv_lhs => rw [← h]
      rw [List.take_take, min_eq_left hseq.le]
    have hflag : received[seqNumSize]? = r.recvBuff.val[seqNumSize]? := by
      conv_lhs => rw [← h]
      rw [List.getElem?_take, if_pos hseq]
    simp only [AudioPacketDecoder.decode, if_neg hshort, if_neg (Nat.not_lt.mpr hle),
      if_neg (Nat.lt_irrefl received.length), hbytes, hflag, h, List.take_length]

/-- What the received bytes are turned into. -/
theorem dispatch_take (h : r.recvBuff.val.take received.length = received) :
    r.dispatch received.length now =
      if received[seqNumSize]? = some PcmDatagram.format then
        match PcmDatagram.decode received with
        | .error _ => (r, none)
        | .ok chunk =>
          ({ r with assembly := (r.assembly.push chunk now).1 }, (r.assembly.push chunk now).2)
      else
        match AudioPacketDecoder.decode received received.length now with
        | .error _ => (r, none)
        | .ok packet => (r, some packet) := by
  have hchunk : (seqNumSize < received.length ∧
      r.recvBuff.val[seqNumSize]? = some PcmDatagram.format) ↔
      received[seqNumSize]? = some PcmDatagram.format := by
    conv_rhs => rw [← h]
    rw [List.getElem?_take]
    split <;> simp [*]
  unfold dispatch
  rw [h, decode_take h]
  exact if_congr hchunk rfl rfl

/-- One pass of the loop over what it receives. -/
theorem poll_datagram (hreceived : bytes.take recvBufferLen = received) :
    let r' := receive { r with assembly := r.assembly.expire polled } bytes
    r.poll (.datagram bytes source polled now) =
      if ¬Accepts r.allowedStreamerIp source then (r', none)
      else if EchoPacket.isEcho received received.length then (r', none)
      else r'.dispatch received.length now := by
  intro r'
  have hlen : min bytes.length recvBufferLen = received.length := by
    rw [← hreceived, List.length_take, Nat.min_comm]
  have htake : r'.recvBuff.val.take received.length = received := by
    rw [← hreceived]
    exact receive_take
  unfold poll
  dsimp only
  rw [hlen, ← isEcho_take htake]
  simp only [Accepts, Bool.not_eq_false]
  rfl


/-- The loop only lets the table expire and pushes the chunk it takes out. -/
theorem poll_assembly (x : Reception) :
    (r.poll x).1.allowedStreamerIp = r.allowedStreamerIp ∧
      (r.poll x).1.assembly =
        PcmAssembly.machine.runFrom r.assembly (callsOf r.allowedStreamerIp x) ∧
      ∀ chunk now, chunkOf r.allowedStreamerIp x = some (chunk, now) →
        (r.poll x).2 = ((r.assembly.expire x.polled).push chunk now).2 := by
  cases x with
  | timeout polled => exact ⟨rfl, rfl, by simp [chunkOf]⟩
  | datagram bytes source polled now =>
    obtain ⟨received, hreceived⟩ : ∃ received, bytes.take recvBufferLen = received := ⟨_, rfl⟩
    have hpoll := @poll_datagram r bytes received source polled now hreceived
    have htake := @receive_take { r with assembly := r.assembly.expire polled } bytes
    rw [hreceived] at htake
    rw [callsOf, chunkOf, hreceived, hpoll]
    dsimp only [Reception.polled]
    by_cases hsource : Accepts r.allowedStreamerIp source
    · by_cases hecho : EchoPacket.isEcho received received.length = true
      · simp [hsource, hecho, receive, PcmAssembly.machine]
      · rw [if_neg (not_not.mpr hsource), if_neg hecho, dispatch_take htake]
        by_cases hformat : received[seqNumSize]? = some PcmDatagram.format
        · rw [if_pos hformat, if_pos ⟨hsource, Bool.not_eq_true _ ▸ hecho, hformat⟩]
          cases PcmDatagram.decode received with
          | error e => simp [receive, PcmAssembly.machine]
          | ok chunk => simp [receive, PcmAssembly.machine]
        · rw [if_neg hformat, if_neg fun h => hformat h.2.2]
          cases AudioPacketDecoder.decode received received.length now with
          | error e => simp [receive, PcmAssembly.machine]
          | ok packet => simp [receive, PcmAssembly.machine]
    · rw [if_pos hsource, if_neg fun h => hsource h.1]
      simp [receive, PcmAssembly.machine]

end Poll

section Runs

variable {allowed : Option IpAddr}

/-- A chunk arrives when its datagram is dispatched. -/
theorem chunkOf_now {bytes : List UInt8} {source : IpAddr} {polled now : Instant} {c : Arrival}
    (h : chunkOf allowed (.datagram bytes source polled now) = some c) : c.2 = now := by
  unfold chunkOf at h
  dsimp only at h
  split at h
  · split at h
    · nomatch h
    · rw [← Option.some.inj h]
  · nomatch h

/-- Over a run the loop makes its calls one after the other. -/
theorem run_assembly (inputs : List Reception) :
    ((machine allowed).run inputs).allowedStreamerIp = allowed ∧
      ((machine allowed).run inputs).assembly =
        PcmAssembly.machine.run (inputs.flatMap (callsOf allowed)) := by
  induction inputs using List.reverseRecOn with
  | nil => exact ⟨rfl, rfl⟩
  | append_singleton inputs x ih =>
    obtain ⟨hallowed, hassembly⟩ := ih
    obtain ⟨hkeep, hcalls, _⟩ := @poll_assembly ((machine allowed).run inputs) x
    have hrun : (machine allowed).run (inputs ++ [x]) =
        (((machine allowed).run inputs).poll x).1 := by
      rw [Machine.run, Machine.runFrom_append]
      rfl
    rw [hrun]
    refine ⟨hkeep.trans hallowed, ?_⟩
    rw [hcalls, hallowed, hassembly, List.flatMap_append, List.flatMap_cons, List.flatMap_nil,
      List.append_nil, Machine.run, Machine.run, Machine.runFrom_append]

/-- The arrivals of a run are the chunks the loop takes out. -/
theorem arrivals_callsOf (inputs : List Reception) :
    PcmAssembly.arrivals (inputs.flatMap (callsOf allowed)) =
      inputs.filterMap (chunkOf allowed) := by
  induction inputs with
  | nil => rfl
  | cons x inputs ih =>
    rw [List.flatMap_cons, PcmAssembly.arrivals, List.filterMap_append, ← PcmAssembly.arrivals,
      ← PcmAssembly.arrivals, ih, List.filterMap_cons]
    cases h : chunkOf allowed x <;> simp [callsOf, h, PcmAssembly.arrivals]

/-- The instants of a pass. -/
def instants : Reception → List Instant
  | .timeout polled => [polled]
  | .datagram _ _ polled now => [polled, now]

/-- The clock does not run backwards. -/
def Chronological (inputs : List Reception) : Prop :=
  (inputs.flatMap instants).Pairwise (· ≤ ·)

instance (inputs : List Reception) : Decidable (Chronological inputs) :=
  inferInstanceAs (Decidable (List.Pairwise _ _))

/-- The calls of a chronological run are chronological. -/
theorem chronological_callsOf (allowed : Option IpAddr) {inputs : List Reception}
    (h : Chronological inputs) :
    PcmAssembly.Chronological (inputs.flatMap (callsOf allowed)) := by
  have hsub : ∀ inputs : List Reception,
      ((inputs.flatMap (callsOf allowed)).map PcmAssembly.Call.now).Sublist
        (inputs.flatMap instants) := by
    intro inputs
    induction inputs with
    | nil => exact List.Sublist.refl _
    | cons x inputs ih =>
      rw [List.flatMap_cons, List.flatMap_cons, List.map_append]
      refine List.Sublist.append ?_ ih
      cases x with
      | timeout polled => exact List.Sublist.refl _
      | datagram bytes source polled now =>
        cases h : chunkOf allowed (.datagram bytes source polled now) with
        | none => simp [callsOf, h, instants, PcmAssembly.Call.now, Reception.polled]
        | some c =>
          simp [callsOf, h, instants, PcmAssembly.Call.now, Reception.polled, chunkOf_now h]
  exact List.pairwise_map.mp (h.sublist (hsub inputs))

/-- The chunks of a chronological run arrive one after the other. -/
theorem pairwise_chunkOf (allowed : Option IpAddr) {inputs : List Reception}
    (h : Chronological inputs) :
    (inputs.filterMap (chunkOf allowed)).Pairwise fun c d => c.2 ≤ d.2 := by
  rw [← arrivals_callsOf, PcmAssembly.arrivals, List.pairwise_filterMap]
  refine (chronological_callsOf allowed h).imp fun {call call'} hle c hc d hd => ?_
  cases call with
  | expire now => cases hc
  | push chunk now =>
    cases call' with
    | expire now' => cases hd
    | push chunk' now' =>
      obtain rfl := Option.some.inj hc
      obtain rfl := Option.some.inj hd
      exact hle

/-- The calls of a run that takes out a chunk end in the push of the chunk. -/
theorem callsOf_split {x : Reception} {c : Arrival} (h : chunkOf allowed x = some c)
    (pre post : List Reception) :
    (pre ++ x :: post).flatMap (callsOf allowed) =
      (pre.flatMap (callsOf allowed) ++ [.expire x.polled]) ++
        .push c.1 c.2 :: post.flatMap (callsOf allowed) := by
  simp [callsOf, h]

/-- What a pass that takes out a chunk answers is what the table answers to its push. -/
theorem output_eq_push {x : Reception} {c : Arrival} (h : chunkOf allowed x = some c)
    (pre : List Reception) :
    (((machine allowed).run pre).poll x).2 =
      ((PcmAssembly.machine.run (pre.flatMap (callsOf allowed) ++ [.expire x.polled])).push
        c.1 c.2).2 := by
  obtain ⟨hallowed, hassembly⟩ := @run_assembly allowed pre
  obtain ⟨_, _, hpush⟩ := @poll_assembly ((machine allowed).run pre) x
  rw [hallowed] at hpush
  rw [hpush c.1 c.2 h, hassembly, Machine.run, Machine.run, Machine.runFrom_append]
  rfl

end Runs

end PacketReceiver

end Gemacast.Player
