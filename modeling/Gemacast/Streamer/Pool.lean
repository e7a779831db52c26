import Gemacast.Core.Table
import Gemacast.Streamer.Types

/-!
# The capture pool

One capture instance for every source that is listened to, and in it one encoder for
every target. The platform decides whether a capture or a codec can be created; its
answers come from outside.
-/

namespace Gemacast.Streamer

open Gemacast.Core

/-- The identity a phone or a PC gives itself. -/
abbrev DeviceId := String

/-- An address of the network layer. -/
inductive IpAddr
  | v4 (bits : ℕ)
  | v6 (bits : ℕ)
  deriving DecidableEq, Repr

/-- An address and a port. -/
structure SocketAddr where
  /-- The address. -/
  ip : IpAddr
  /-- The port. -/
  port : ℕ
  deriving DecidableEq, Repr

/-- What is captured. -/
inductive AudioSource
  | desktop
  | process (pid : ℕ) (name : String)
  deriving DecidableEq, Repr

/-- Where an encoder sends its packets. -/
inductive TargetId
  | udp (addr : SocketAddr)
  | tcp (deviceId : DeviceId)
  deriving DecidableEq, Repr

/-- A broadcast channel of encoded packets, by its identity. -/
abbrev Channel := ℕ

/-- What the platform answers while an encoder is set up. -/
structure Platform where
  /-- The capture can be created. -/
  capture : Except String Unit
  /-- The codec can be created. -/
  codec : Bool
  /-- The channel that would be created. -/
  channel : Channel

/-- Why a pool operation failed. -/
inductive PoolError
  | capturePoolExhausted (max : ℕ)
  | processCaptureUnavailable
  | captureFailed (message : String)
  | invalidBitrate (value min max : ℤ)
  | opusInitFailed
  | sourceNotSubscribed
  deriving DecidableEq, Repr

/-- The text of an error. -/
def PoolError.text : PoolError → String
  | .capturePoolExhausted max => s!"capture pool is full (max {max} concurrent captures)"
  | .processCaptureUnavailable => "per-process audio capture is not available on this platform"
  | .captureFailed message => message
  | .invalidBitrate value min max =>
    s!"invalid audio bitrate {value} bps (expected {min}..={max}, or null for uncompressed)"
  | .opusInitFailed => "failed to create Opus encoder"
  | .sourceNotSubscribed => "source is not actively subscribed"

/-- The number after a generation; zero is never a generation. -/
def nextGeneration (generation : UInt64) : UInt64 := max (generation + 1) 1

/-- The bitrate a request names. -/
def requestedBitrate (bitrate : Option ℤ) : Except PoolError AudioBitrate :=
  match AudioBitrate.fromWire bitrate with
  | .ok bitrate => .ok bitrate
  | .error (.invalidBitrate value min max) => .error (.invalidBitrate value min max)
  | .error _ => .error .opusInitFailed

/-- Only a compressed stream needs a codec. -/
def createCodec (bitrate : AudioBitrate) (platform : Platform) : Except PoolError Unit :=
  match bitrate with
  | .uncompressed => .ok ()
  | .opus _ => if platform.codec then .ok () else .error .opusInitFailed

/-- The encoder of a UDP target. -/
structure PerTargetEncoder where
  /-- The bitrate. -/
  bitrate : AudioBitrate
  /-- The number of the encoder in its instance. -/
  generation : UInt64
  deriving DecidableEq

/-- The encoder of a device on ADB or USB. -/
structure TcpEncoder where
  /-- The bitrate. -/
  bitrate : AudioBitrate
  /-- The number of the encoder in its instance. -/
  generation : UInt64
  /-- The channel it publishes to. -/
  audioBroadcastTx : Channel
  deriving DecidableEq

/-- A running capture and its encoders. -/
structure AudioCaptureInstance where
  /-- What is captured. -/
  source : AudioSource
  /-- The number of the instance in its pool. -/
  generation : UInt64
  /-- The number of the newest encoder. -/
  nextEncoderGeneration : UInt64
  /-- The encoders of UDP targets. -/
  perTargetEncoders : Table SocketAddr PerTargetEncoder
  /-- The encoders of devices on ADB or USB. -/
  tcpEncoders : Table DeviceId TcpEncoder
  deriving DecidableEq

namespace AudioCaptureInstance

/-- A capture nobody listens to yet. -/
def new (source : AudioSource) (generation : UInt64) : AudioCaptureInstance where
  source
  generation
  nextEncoderGeneration := 0
  perTargetEncoders := ∅
  tcpEncoders := ∅

/-- Stop the encoder of an address. -/
def removeTargetEncoder (i : AudioCaptureInstance) (addr : SocketAddr) : AudioCaptureInstance :=
  { i with perTargetEncoders := i.perTargetEncoders.erase addr }

/-- Stop the encoder of a device. -/
def removeTcpEncoder (i : AudioCaptureInstance) (deviceId : DeviceId) : AudioCaptureInstance :=
  { i with tcpEncoders := i.tcpEncoders.erase deviceId }

/-- Start the encoder of an address, unless it runs at the bitrate already. -/
def spawnTargetEncoder (i : AudioCaptureInstance) (addr : SocketAddr) (bitrate : Option ℤ)
    (platform : Platform) : Except PoolError AudioCaptureInstance :=
  match requestedBitrate bitrate with
  | .error e => .error e
  | .ok bitrate =>
    if (i.perTargetEncoders.lookup addr).any fun encoder => encoder.bitrate = bitrate then .ok i
    else
      match createCodec bitrate platform with
      | .error e => .error e
      | .ok () =>
        let i := i.removeTargetEncoder addr
        let generation := nextGeneration i.nextEncoderGeneration
        .ok
          { i with
            nextEncoderGeneration := generation
            perTargetEncoders := i.perTargetEncoders.insert addr ⟨bitrate, generation⟩ }

/-- The channel of a device. -/
def tcpBroadcaster (i : AudioCaptureInstance) (deviceId : DeviceId) : Option Channel :=
  (i.tcpEncoders.lookup deviceId).map (·.audioBroadcastTx)

/-- Start the encoder of a device on a channel handed over, its own or a new one, unless
it runs at the bitrate already. -/
def spawnTcpEncoderWithChannel (i : AudioCaptureInstance) (deviceId : DeviceId)
    (bitrate : Option ℤ) (reusableChannel : Option Channel) (platform : Platform) :
    Except PoolError (AudioCaptureInstance × Channel) :=
  match requestedBitrate bitrate with
  | .error e => .error e
  | .ok bitrate =>
    match (i.tcpEncoders.lookup deviceId).filter fun encoder => encoder.bitrate = bitrate with
    | some existing => .ok (i, existing.audioBroadcastTx)
    | none =>
      match createCodec bitrate platform with
      | .error e => .error e
      | .ok () =>
        let channel := (reusableChannel.or (i.tcpBroadcaster deviceId)).getD platform.channel
        let i := i.removeTcpEncoder deviceId
        let generation := nextGeneration i.nextEncoderGeneration
        .ok
          ({ i with
              nextEncoderGeneration := generation
              tcpEncoders := i.tcpEncoders.insert deviceId ⟨bitrate, generation, channel⟩ },
            channel)

/-- No encoder is left. -/
def isIdle (i : AudioCaptureInstance) : Bool :=
  i.perTargetEncoders.isEmpty && i.tcpEncoders.isEmpty

end AudioCaptureInstance

/-- What a failed task tells about itself. -/
inductive StreamTaskFailure
  | capture (source : AudioSource) (generation : UInt64) (message : String)
  | udpEncoder (source : AudioSource) (generation encoderGeneration : UInt64)
      (target : SocketAddr) (message : String)
  | tcpEncoder (source : AudioSource) (generation encoderGeneration : UInt64)
      (deviceId : DeviceId) (message : String)
  deriving DecidableEq, Repr

/-- The captures in use. -/
structure CapturePool where
  /-- The instance of every source. -/
  instances : Table AudioSource AudioCaptureInstance
  /-- Single processes can be captured. -/
  supportsProcessCapture : Bool
  /-- The number of the newest instance. -/
  nextGeneration : UInt64
  deriving DecidableEq

namespace CapturePool

/-- Captures that may run at once. -/
def maxInstances : ℕ := 8

/-- The pool before the first subscription. -/
def new (supportsProcessCapture : Bool) : CapturePool where
  instances := ∅
  supportsProcessCapture
  nextGeneration := 0

/-- Create the capture of a source. -/
def createCapture (p : CapturePool) (source : AudioSource) (platform : Platform) :
    Except PoolError Unit :=
  match source with
  | .desktop => platform.capture.mapError .captureFailed
  | .process _ _ =>
    if p.supportsProcessCapture then platform.capture.mapError .captureFailed
    else .error .processCaptureUnavailable

/-- Make sure the source is captured. -/
def ensureInstance (p : CapturePool) (source : AudioSource) (platform : Platform) :
    Except PoolError (CapturePool × AudioCaptureInstance) :=
  match p.instances.lookup source with
  | some i => .ok (p, i)
  | none =>
    if maxInstances ≤ p.instances.size then .error (.capturePoolExhausted maxInstances)
    else
      match p.createCapture source platform with
      | .error e => .error e
      | .ok () =>
        let generation := Streamer.nextGeneration p.nextGeneration
        let i := AudioCaptureInstance.new source generation
        .ok ({ p with nextGeneration := generation, instances := p.instances.insert source i }, i)

/-- Add a target to a source, capturing it if need be. -/
def subscribeWithChannel (p : CapturePool) (source : AudioSource) (target : TargetId)
    (bitrate : Option ℤ) (reusableChannel : Option Channel) (platform : Platform) :
    CapturePool × Except PoolError (Option Channel) :=
  match p.ensureInstance source platform with
  | .error e => (p, .error e)
  | .ok (p, i) =>
    match target with
    | .udp addr =>
      match i.spawnTargetEncoder addr bitrate platform with
      | .error e => (p, .error e)
      | .ok i => ({ p with instances := p.instances.insert source i }, .ok none)
    | .tcp deviceId =>
      match i.spawnTcpEncoderWithChannel deviceId bitrate reusableChannel platform with
      | .error e => (p, .error e)
      | .ok (i, channel) =>
        ({ p with instances := p.instances.insert source i }, .ok (some channel))

/-- Add a target to a source. -/
def subscribe (p : CapturePool) (source : AudioSource) (target : TargetId) (bitrate : Option ℤ)
    (platform : Platform) : CapturePool × Except PoolError (Option Channel) :=
  p.subscribeWithChannel source target bitrate none platform

/-- Remove a target from a source, and the capture with its last target. -/
def unsubscribe (p : CapturePool) (source : AudioSource) (target : TargetId) : CapturePool :=
  match p.instances.lookup source with
  | none => p
  | some i =>
    let i :=
      match target with
      | .udp addr => i.removeTargetEncoder addr
      | .tcp deviceId => i.removeTcpEncoder deviceId
    if i.isIdle then { p with instances := p.instances.erase source }
    else { p with instances := p.instances.insert source i }

/-- The channel of a device on a source. -/
def tcpBroadcaster (p : CapturePool) (source : AudioSource) (deviceId : DeviceId) :
    Option Channel :=
  (p.instances.lookup source).bind fun i => i.tcpBroadcaster deviceId

/-- Move a target to another source. -/
def changeSource (p : CapturePool) (oldSource newSource : AudioSource) (target : TargetId)
    (bitrate : Option ℤ) (platform : Platform) :
    CapturePool × Except PoolError (Option Channel) :=
  if oldSource = newSource then p.subscribe newSource target bitrate platform
  else
    let reusableChannel :=
      match target with
      | .tcp deviceId => p.tcpBroadcaster oldSource deviceId
      | .udp _ => none
    match p.subscribeWithChannel newSource target bitrate reusableChannel platform with
    | (p, .error e) => (p, .error e)
    | (p, .ok channel) => (p.unsubscribe oldSource target, .ok channel)

/-- Restart the encoder of a target at another bitrate. -/
def changeBitrate (p : CapturePool) (source : AudioSource) (target : TargetId)
    (bitrate : Option ℤ) (platform : Platform) :
    CapturePool × Except PoolError (Option Channel) :=
  match p.instances.lookup source with
  | none => (p, .error .sourceNotSubscribed)
  | some i =>
    match target with
    | .udp addr =>
      match i.spawnTargetEncoder addr bitrate platform with
      | .error e => (p, .error e)
      | .ok i => ({ p with instances := p.instances.insert source i }, .ok none)
    | .tcp deviceId =>
      match i.spawnTcpEncoderWithChannel deviceId bitrate none platform with
      | .error e => (p, .error e)
      | .ok (i, channel) =>
        ({ p with instances := p.instances.insert source i }, .ok (some channel))

/-- Stop every capture. -/
def shutdownAll (p : CapturePool) : CapturePool := { p with instances := ∅ }

/-- Drop a failed capture, unless it has been replaced. -/
def evictFailedSource (p : CapturePool) (source : AudioSource) (generation : UInt64) :
    CapturePool × Bool :=
  if (p.instances.lookup source).all fun i => i.generation ≠ generation then (p, false)
  else ({ p with instances := p.instances.erase source }, true)

/-- Drop a failed encoder, unless it or its capture has been replaced. -/
def removeFailedTarget (p : CapturePool) (failure : StreamTaskFailure) : CapturePool × Bool :=
  match failure with
  | .udpEncoder source generation encoderGeneration target _ =>
    match p.instances.lookup source with
    | none => (p, false)
    | some i =>
      if i.generation ≠ generation then (p, false)
      else if (i.perTargetEncoders.lookup target).all fun encoder =>
          encoder.generation ≠ encoderGeneration then (p, false)
      else ({ p with instances := p.instances.insert source (i.removeTargetEncoder target) }, true)
  | .tcpEncoder source generation encoderGeneration deviceId _ =>
    match p.instances.lookup source with
    | none => (p, false)
    | some i =>
      if i.generation ≠ generation then (p, false)
      else if (i.tcpEncoders.lookup deviceId).all fun encoder =>
          encoder.generation ≠ encoderGeneration then (p, false)
      else ({ p with instances := p.instances.insert source (i.removeTcpEncoder deviceId) }, true)
  | .capture _ _ _ => (p, false)

end CapturePool

end Gemacast.Streamer
