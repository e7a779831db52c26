import Gemacast.Player.PcmDatagram

/-!
# The receive thread

One pass of the receive loop: overdue frames are dropped, a datagram is read into the
receive buffer, datagrams of other senders and echoes of the probe are skipped, and what
is left is a chunk of an uncompressed frame or a whole packet.
-/

namespace Gemacast.Player

open Gemacast.Core Gemacast.Jitter

/-- Bytes of the receive buffer. -/
def recvBufferLen : ℕ := seqNumSize + formatFlagSize + maxOpusPacketSize

namespace EchoPacket

/-- The first two bytes of an echo probe. -/
def magic : List UInt8 := [0xF1, 0x1E]

/-- Bytes of an echo probe. -/
def packetLen : ℕ := 10

/-- The received bytes are an echo probe. -/
def isEcho (buffer : List UInt8) (len : ℕ) : Bool :=
  decide (len = packetLen ∧ packetLen ≤ buffer.length ∧ buffer.take 2 = magic)

end EchoPacket

/-- The address of a sender. -/
abbrev IpAddr := ℕ

/-- One pass of the receive loop. -/
inductive Reception
  /-- Nothing arrived in time. -/
  | timeout (polled : Instant)
  /-- A datagram arrived; the loop started at `polled` and dispatches it at `now`. -/
  | datagram (bytes : List UInt8) (source : IpAddr) (polled now : Instant)

/-- The instant at which the pass starts. -/
def Reception.polled : Reception → Instant
  | .timeout polled => polled
  | .datagram _ _ polled _ => polled

/-- The state of the receive thread. -/
structure PacketReceiver where
  /-- The receive buffer. -/
  recvBuff : { bytes : List UInt8 // bytes.length = recvBufferLen }
  /-- The reassembly table. -/
  assembly : PcmAssembly
  /-- The only address audio is accepted from. -/
  allowedStreamerIp : Option IpAddr

namespace PacketReceiver

/-- The thread before the first datagram. -/
def new (allowedStreamerIp : Option IpAddr) : PacketReceiver where
  recvBuff := ⟨List.replicate recvBufferLen 0, List.length_replicate⟩
  assembly := PcmAssembly.new
  allowedStreamerIp

/-- Read a datagram into the buffer; what does not fit is cut off. -/
def receive (r : PacketReceiver) (bytes : List UInt8) : PacketReceiver :=
  { r with
    recvBuff := ⟨overwrite r.recvBuff.val 0 bytes, by rw [length_overwrite]; exact r.recvBuff.2⟩ }

/-- Turn the first `len` bytes of the buffer into a packet. -/
def dispatch (r : PacketReceiver) (len : ℕ) (now : Instant) : PacketReceiver × Option RawPacket :=
  if seqNumSize < len ∧ r.recvBuff.val[seqNumSize]? = some PcmDatagram.format then
    match PcmDatagram.decode (r.recvBuff.val.take len) with
    | .error _ => (r, none)
    | .ok chunk =>
      match r.assembly.push chunk now with
      | (assembly, packet) => ({ r with assembly }, packet)
  else
    match AudioPacketDecoder.decode r.recvBuff.val len now with
    | .error _ => (r, none)
    | .ok packet => (r, some packet)

/-- One pass of the loop; the answer is the packet it produces. -/
def poll (r : PacketReceiver) : Reception → PacketReceiver × Option RawPacket
  | .timeout polled => ({ r with assembly := r.assembly.expire polled }, none)
  | .datagram bytes source polled now =>
    let len := min bytes.length recvBufferLen
    let r := receive { r with assembly := r.assembly.expire polled } bytes
    if r.allowedStreamerIp.any fun allowed => allowed ≠ source then (r, none)
    else if EchoPacket.isEcho r.recvBuff.val len then (r, none)
    else r.dispatch len now

/-- The receive thread as a machine. -/
def machine (allowedStreamerIp : Option IpAddr) :
    Machine PacketReceiver Reception (Option RawPacket) where
  init := new allowedStreamerIp
  step := poll

end PacketReceiver

end Gemacast.Player
