import Gemacast.Core.ByteStream
import Gemacast.Player.ReceiverRuns

/-!
# Packets over one TCP stream

The sender puts the length of a packet in front of it. The receiver reads the length and
then as many bytes, and retries when a read times out. A read that fails after it has taken
some of its bytes has lost them, so the packets come through exactly when every time-out
falls between two packets and the silence stays below ten seconds.
-/

namespace Gemacast.Player

open Gemacast.Core Gemacast.Jitter

/-! ### The sender -/

/-- The sender's batch of framed packets. -/
structure TcpAudioFramer where
  /-- The bytes yet to be written. -/
  batch : List UInt8

namespace TcpAudioFramer

/-- An empty batch. -/
def new : TcpAudioFramer := ⟨[]⟩

/-- Append a packet behind its length. -/
def appendPacket (f : TcpAudioFramer) (payload : List UInt8) : TcpAudioFramer :=
  ⟨f.batch ++ beBytes 4 (payload.length % 2 ^ 32) ++ payload⟩

/-- Write the batch to the socket; the answer is what is written. -/
def flush (f : TcpAudioFramer) : TcpAudioFramer × List UInt8 := (⟨[]⟩, f.batch)

/-- Drop the batch. -/
def clear (_ : TcpAudioFramer) : TcpAudioFramer := ⟨[]⟩

/-- The calls of the sender. -/
inductive Call
  /-- Append a packet. -/
  | appendPacket (payload : List UInt8)
  /-- Write the batch. -/
  | flush
  /-- Drop the batch. -/
  | clear

/-- One call; the answer is what it writes to the socket. -/
def apply (f : TcpAudioFramer) : Call → TcpAudioFramer × List UInt8
  | .appendPacket payload => (f.appendPacket payload, [])
  | .flush => f.flush
  | .clear => (f.clear, [])

/-- The sender as a machine. -/
def machine : Machine TcpAudioFramer Call (List UInt8) where
  init := new
  step := apply

/-- The bytes a sequence of calls writes to the socket. -/
def wire (calls : List Call) : List UInt8 := (machine.events calls).flatMap fun e => e.output

/-- The packets a sequence of calls writes, some appended before. -/
def writtenAfter : List (List UInt8) → List Call → List (List UInt8)
  | _, [] => []
  | pending, .appendPacket payload :: calls => writtenAfter (pending ++ [payload]) calls
  | pending, .flush :: calls => pending ++ writtenAfter [] calls
  | _, .clear :: calls => writtenAfter [] calls

/-- The packets a sequence of calls writes. -/
def written (calls : List Call) : List (List UInt8) := writtenAfter [] calls

/-- A packet behind its length. -/
def frame (payload : List UInt8) : List UInt8 :=
  beBytes 4 (payload.length % 2 ^ 32) ++ payload

/-- The sender writes the packets in their frames, one after the other. -/
theorem flatMap_eventsFrom (pending : List (List UInt8)) (calls : List Call) :
    (machine.eventsFrom ⟨pending.flatMap frame⟩ calls).flatMap (fun e => e.output) =
      (writtenAfter pending calls).flatMap frame := by
  induction calls generalizing pending with
  | nil => rfl
  | cons call calls ih =>
    rw [Machine.eventsFrom_cons, List.flatMap_cons, Machine.eventAt_output]
    cases call with
    | appendPacket payload =>
      have hbatch : (machine.step ⟨pending.flatMap frame⟩ (.appendPacket payload)).1 =
          ⟨(pending ++ [payload]).flatMap frame⟩ := by
        change TcpAudioFramer.mk _ = _
        rw [List.flatMap_append, List.flatMap_singleton, frame, List.append_assoc]
      rw [hbatch, ih, writtenAfter]
      rfl
    | flush =>
      rw [writtenAfter, List.flatMap_append, ← ih []]
      rfl
    | clear =>
      rw [writtenAfter, ← ih []]
      rfl

/-- The bytes on the wire are the frames of the packets written. -/
theorem wire_eq (calls : List Call) : wire calls = (written calls).flatMap frame :=
  flatMap_eventsFrom [] calls

@[simp] theorem length_frame (payload : List UInt8) :
    (frame payload).length = 4 + payload.length := by
  rw [frame, List.length_append, length_beBytes]

end TcpAudioFramer

/-! ### The receiver -/

/-- Read one packet into a buffer of `bufferLen` bytes: its length, then its bytes. -/
def TcpTransport.receiveAudioPacket (bufferLen : ℕ) (now : Instant) (arrivals : List SocketEvent) :
    ReadExact :=
  match readExact 4 now arrivals with
  | .done lenBuf now rest =>
    if bufferLen < ofBeBytes lenBuf then .failed .invalidData now rest
    else readExact (ofBeBytes lenBuf) now rest
  | .failed kind now rest => .failed kind now rest
  | .blocked => .blocked

namespace TcpTransport

variable {bufferLen : ℕ} {now now' : Instant} {bytes p tail : List UInt8} {kind : IoErrorKind}
  {arrivals rest : List SocketEvent}

/-- A packet is read in two parts. -/
theorem receiveAudioPacket_done
    (h : receiveAudioPacket bufferLen now arrivals = .done bytes now' rest) :
    ∃ lenBuf mid between, readExact 4 now arrivals = .done lenBuf mid between ∧
      readExact (ofBeBytes lenBuf) mid between = .done bytes now' rest := by
  unfold receiveAudioPacket at h
  split at h
  · next lenBuf mid between hheader =>
    split at h
    · cases h
    · exact ⟨lenBuf, mid, between, hheader, h⟩
  · cases h
  · cases h

/-- A packet fails to be read at its length, for its length or at its bytes. -/
theorem receiveAudioPacket_failed
    (h : receiveAudioPacket bufferLen now arrivals = .failed kind now' rest) :
    readExact 4 now arrivals = .failed kind now' rest ∨
      ∃ lenBuf mid between, readExact 4 now arrivals = .done lenBuf mid between ∧
        (bufferLen < ofBeBytes lenBuf ∧ kind = .invalidData ∧ between = rest ∨
          readExact (ofBeBytes lenBuf) mid between = .failed kind now' rest) := by
  unfold receiveAudioPacket at h
  split at h
  · next lenBuf mid between hheader =>
    split at h
    · next hlong =>
      cases h
      exact .inr ⟨lenBuf, now', rest, hheader, .inl ⟨hlong, rfl, rfl⟩⟩
    · exact .inr ⟨lenBuf, mid, between, hheader, .inr h⟩
  · next hheader =>
    cases h
    exact .inl hheader
  · cases h

/-- The length read from the front of a frame is the length of its packet. -/
theorem header_of_frame (hfits : p.length ≤ recvBufferLen)
    (hbytes : bytesOf arrivals = TcpAudioFramer.frame p ++ tail)
    (h : readExact 4 now arrivals = .done bytes now' rest) :
    ofBeBytes bytes = p.length ∧ bytesOf rest = p ++ tail := by
  obtain ⟨hsplit, hlen, -⟩ := bytesOf_of_done h
  rw [hbytes, TcpAudioFramer.frame, List.append_assoc] at hsplit
  obtain ⟨rfl, hrest⟩ := List.append_inj hsplit ((length_beBytes _ _).trans hlen.symm)
  have hsmall : p.length < 2 ^ 32 := Nat.lt_of_le_of_lt hfits (by decide)
  rw [Nat.mod_eq_of_lt hsmall, ofBeBytes_beBytes hsmall]
  exact ⟨rfl, hrest.symm⟩

/-- A packet that is read leaves fewer arrivals. -/
theorem length_of_done (h : receiveAudioPacket bufferLen now arrivals = .done bytes now' rest) :
    rest.length < arrivals.length := by
  obtain ⟨lenBuf, mid, between, hheader, hbody⟩ := receiveAudioPacket_done h
  have hfirst := (bytesOf_of_done hheader).2.2
  have hsecond := (bytesOf_of_done hbody).2.2
  omega

/-- A packet that fails to be read leaves fewer arrivals. -/
theorem length_of_failed
    (h : receiveAudioPacket bufferLen now arrivals = .failed kind now' rest) :
    rest.length < arrivals.length := by
  obtain hheader | ⟨lenBuf, mid, between, hheader, ⟨-, -, rfl⟩ | hbody⟩ :=
    receiveAudioPacket_failed h
  · exact (bytesOf_of_failed hheader).2
  · have hfirst := (bytesOf_of_done hheader).2.2
    omega
  · have hfirst := (bytesOf_of_done hheader).2.2
    have hsecond := (bytesOf_of_failed hbody).2
    omega

/-- A packet that fails to be read takes what it has read off the stream. -/
theorem bytesOf_of_failed
    (h : receiveAudioPacket bufferLen now arrivals = .failed kind now' rest) :
    ∃ lost, bytesOf arrivals = lost ++ bytesOf rest := by
  obtain hheader | ⟨lenBuf, mid, between, hheader, ⟨-, -, rfl⟩ | hbody⟩ :=
    receiveAudioPacket_failed h
  · obtain ⟨⟨lost, hlost, -⟩, -⟩ := Core.bytesOf_of_failed hheader
    exact ⟨lost, hlost⟩
  · exact ⟨lenBuf, (bytesOf_of_done hheader).1⟩
  · obtain ⟨⟨lost, hlost, -⟩, -⟩ := Core.bytesOf_of_failed hbody
    refine ⟨lenBuf ++ lost, ?_⟩
    rw [(bytesOf_of_done hheader).1, hlost, List.append_assoc]

/-- A read does not wait while the whole frame of a packet is there. -/
theorem not_blocked_of_frame (hfits : p.length ≤ recvBufferLen)
    (hbytes : bytesOf arrivals = TcpAudioFramer.frame p ++ tail) :
    receiveAudioPacket bufferLen now arrivals ≠ .blocked := by
  intro h
  unfold receiveAudioPacket at h
  split at h
  · next lenBuf mid between hheader =>
    obtain ⟨hlength, hbetween⟩ := header_of_frame hfits hbytes hheader
    rw [hlength] at h
    split at h
    · cases h
    · have hshort := bytesOf_of_blocked h
      rw [hbetween, List.length_append] at hshort
      omega
  · cases h
  · next hheader =>
    have hshort := bytesOf_of_blocked hheader
    rw [hbytes, List.length_append, TcpAudioFramer.length_frame] at hshort
    omega

end TcpTransport

namespace PacketReceiver

/-- The silence after which the loop gives the connection up, in seconds. -/
def silenceLimitSecs : ℕ := 10

/-- The silence at an instant, in seconds. -/
def silence (lastPacketTime now : Instant) : ℕ :=
  Duration.asSecs (Instant.durationSince now lastPacketTime)

/-- The failures after which the loop reads again. -/
def Transient (kind : IoErrorKind) : Prop :=
  kind = .timedOut ∨ kind = .wouldBlock ∨ kind = .interrupted

instance : DecidablePred Transient := fun _ => inferInstanceAs (Decidable (_ ∨ _))

/-- The packet counts as audio: it is from the accepted sender and no echo of the probe. -/
def IsAudio (allowed : Option IpAddr) (peer : IpAddr) (bytes : List UInt8) : Prop :=
  Accepts allowed peer ∧ EchoPacket.isEcho bytes bytes.length = false

instance (allowed : Option IpAddr) (peer : IpAddr) (bytes : List UInt8) :
    Decidable (IsAudio allowed peer bytes) := inferInstanceAs (Decidable (_ ∧ _))

/-- The arrival of the last audio, after a packet. -/
def heardAt (allowed : Option IpAddr) (peer : IpAddr) (lastPacketTime : Instant)
    (bytes : List UInt8) (now : Instant) : Instant :=
  if IsAudio allowed peer bytes then now else lastPacketTime

/-- What the receive loop gets from a stream, pass by pass; `lastPacketTime` is the arrival of
the last audio. -/
def receiveLoop (allowed : Option IpAddr) (peer : IpAddr) (lastPacketTime now : Instant)
    (arrivals : List SocketEvent) : List Reception :=
  match _h : TcpTransport.receiveAudioPacket recvBufferLen now arrivals with
  | .blocked => []
  | .done bytes now' rest =>
    .datagram bytes peer now now' ::
      receiveLoop allowed peer (heardAt allowed peer lastPacketTime bytes now') now' rest
  | .failed kind now' rest =>
    if kind = .unexpectedEof ∨ kind = .connectionReset then [.timeout now]
    else if silenceLimitSecs ≤ silence lastPacketTime now' then [.timeout now]
    else if Transient kind then .timeout now :: receiveLoop allowed peer lastPacketTime now' rest
    else [.timeout now]
termination_by arrivals.length
decreasing_by
  · exact TcpTransport.length_of_done _h
  · exact TcpTransport.length_of_failed _h

/-- The packets among what the loop gets. -/
def obtained : List Reception → List (List UInt8)
  | [] => []
  | .datagram bytes _ _ _ :: rest => bytes :: obtained rest
  | .timeout _ :: rest => obtained rest

/-- The arrivals bring packets undisturbed, `into` bytes of the first one's frame being there
already: until the last packet is there no read fails within a frame, and between two frames
reads only time out, before the silence is too long. -/
def Undisturbed (allowed : Option IpAddr) (peer : IpAddr) :
    Instant → ℕ → List (List UInt8) → List SocketEvent → Prop
  | _, _, [], _ => True
  | _, _, _ :: _, [] => True
  | last, into, p :: ps, .byte _ now :: rest =>
    if into + 1 = 4 + p.length then
      Undisturbed allowed peer (heardAt allowed peer last p now) 0 ps rest
    else Undisturbed allowed peer last (into + 1) (p :: ps) rest
  | last, into, p :: ps, .failed .interrupted _ :: rest =>
    Undisturbed allowed peer last into (p :: ps) rest
  | last, into, p :: ps, .failed kind now :: rest =>
    into = 0 ∧ Transient kind ∧ silence last now < silenceLimitSecs ∧
      Undisturbed allowed peer last into (p :: ps) rest
  | _, _, _ :: _, .closed _ :: _ => False

section Undisturbed

variable {allowed : Option IpAddr} {peer : IpAddr} {n into : ℕ} {last now now' : Instant}
  {bytes p tail : List UInt8} {ps : List (List UInt8)} {kind : IoErrorKind}
  {arrivals rest : List SocketEvent}

@[simp] theorem undisturbed_nil : Undisturbed allowed peer last into [] arrivals := by
  unfold Undisturbed
  trivial

/-- A finished read within a frame. -/
theorem undisturbed_within (h : readExact n now arrivals = .done bytes now' rest)
    (hinto : into + n < 4 + p.length) :
    Undisturbed allowed peer last into (p :: ps) arrivals ↔
      Undisturbed allowed peer last (into + n) (p :: ps) rest := by
  fun_induction readExact n now arrivals generalizing into bytes with
  | case1 =>
    cases h
    rfl
  | case2 => cases h
  | case3 n now value now rest ih =>
    obtain ⟨tail, hr, rfl⟩ := prepend_eq_done.mp h
    rw [Undisturbed, if_neg (by omega), ih hr (by omega), Nat.add_right_comm, Nat.add_assoc]
  | case4 n now now' rest ih =>
    rw [Undisturbed]
    exact ih h hinto
  | case5 => cases h
  | case6 => cases h

/-- A finished read up to the end of a frame. -/
theorem undisturbed_through (h : readExact n now arrivals = .done bytes now' rest) (hn : 0 < n)
    (hinto : into + n = 4 + p.length) :
    Undisturbed allowed peer last into (p :: ps) arrivals ↔
      Undisturbed allowed peer (heardAt allowed peer last p now') 0 ps rest := by
  fun_induction readExact n now arrivals generalizing into bytes with
  | case1 => omega
  | case2 => cases h
  | case3 n now value now rest ih =>
    obtain ⟨tail, hr, rfl⟩ := prepend_eq_done.mp h
    rw [Undisturbed]
    cases n with
    | zero =>
      obtain ⟨-, rfl, rfl⟩ := ReadExact.done.inj ((readExact_zero now rest).symm.trans hr)
      rw [if_pos hinto]
    | succ n => rw [if_neg (by omega), ih hr (by omega) (by omega)]
  | case4 n now now' rest ih =>
    rw [Undisturbed]
    exact ih h hn hinto
  | case5 => cases h
  | case6 => cases h

/-- A failed read within a frame. -/
theorem undisturbed_failed (h : readExact n now arrivals = .failed kind now' rest)
    (hinto : into + n ≤ 4 + p.length) :
    ∃ lost, bytesOf arrivals = lost ++ bytesOf rest ∧
      (Undisturbed allowed peer last into (p :: ps) arrivals ↔
        into + lost.length = 0 ∧ Transient kind ∧ silence last now' < silenceLimitSecs ∧
          Undisturbed allowed peer last 0 (p :: ps) rest) := by
  fun_induction readExact n now arrivals generalizing into with
  | case1 => cases h
  | case2 => cases h
  | case3 n now value now rest ih =>
    have hr := prepend_eq_failed.mp h
    obtain ⟨⟨_, -, hpos⟩, -⟩ := bytesOf_of_failed hr
    obtain ⟨lost, hbytes, hiff⟩ := @ih (into + 1) hr (by omega)
    refine ⟨value :: lost, by rw [bytesOf, hbytes, List.cons_append], ?_⟩
    rw [Undisturbed, if_neg (by omega), hiff]
    exact iff_of_false (fun hall => by omega) fun hall => by simp at hall
  | case4 n now now' rest ih =>
    obtain ⟨lost, hbytes, hiff⟩ := ih h hinto
    rw [Undisturbed]
    exact ⟨lost, hbytes, hiff⟩
  | case5 n now kind now' rest =>
    obtain ⟨rfl, rfl, rfl⟩ := ReadExact.failed.inj h
    refine ⟨[], rfl, ?_⟩
    rw [Undisturbed]
    · constructor
      · rintro ⟨rfl, htransient, hsilence, hrest⟩
        exact ⟨rfl, htransient, hsilence, hrest⟩
      · rintro ⟨hzero, htransient, hsilence, hrest⟩
        obtain rfl : into = 0 := hzero
        exact ⟨rfl, htransient, hsilence, hrest⟩
    · assumption
  | case6 n now now' rest =>
    obtain ⟨rfl, rfl, rfl⟩ := ReadExact.failed.inj h
    refine ⟨[], rfl, ?_⟩
    rw [Undisturbed]
    exact iff_of_false not_false fun hall => by simpa [Transient] using hall.2.1

/-- A packet that is read from the frame of a packet is that packet. -/
theorem undisturbed_packet (hfits : p.length ≤ recvBufferLen)
    (hbytes : bytesOf arrivals = TcpAudioFramer.frame p ++ tail)
    (h : TcpTransport.receiveAudioPacket recvBufferLen now arrivals = .done bytes now' rest) :
    bytes = p ∧ bytesOf rest = tail ∧
      (Undisturbed allowed peer last 0 (p :: ps) arrivals ↔
        Undisturbed allowed peer (heardAt allowed peer last p now') 0 ps rest) := by
  obtain ⟨lenBuf, mid, between, hheader, hbody⟩ := TcpTransport.receiveAudioPacket_done h
  obtain ⟨hlength, hbetween⟩ := TcpTransport.header_of_frame hfits hbytes hheader
  rw [hlength] at hbody
  obtain ⟨hsplit, hlen, -⟩ := bytesOf_of_done hbody
  obtain ⟨rfl, rfl⟩ := List.append_inj (hbetween.symm.trans hsplit) hlen.symm
  refine ⟨rfl, rfl, ?_⟩
  cases hp : p.length with
  | zero =>
    rw [hp, readExact_zero] at hbody
    obtain ⟨-, rfl, rfl⟩ := ReadExact.done.inj hbody
    exact undisturbed_through hheader (by decide) (by omega)
  | succ k =>
    rw [undisturbed_within hheader (by omega), undisturbed_through hbody (by omega) (by omega)]

/-- A read that fails at a packet has lost nothing, exactly if it was between two frames. -/
theorem undisturbed_lost (hfits : p.length ≤ recvBufferLen)
    (hbytes : bytesOf arrivals = TcpAudioFramer.frame p ++ tail)
    (h : TcpTransport.receiveAudioPacket recvBufferLen now arrivals = .failed kind now' rest) :
    ∃ lost, bytesOf arrivals = lost ++ bytesOf rest ∧
      (Undisturbed allowed peer last 0 (p :: ps) arrivals ↔
        lost = [] ∧ Transient kind ∧ silence last now' < silenceLimitSecs ∧
          Undisturbed allowed peer last 0 (p :: ps) rest) := by
  obtain hheader | ⟨lenBuf, mid, between, hheader, hbody⟩ :=
    TcpTransport.receiveAudioPacket_failed h
  · obtain ⟨lost, hlost, hiff⟩ := undisturbed_failed hheader (Nat.le_add_right (0 + 4) p.length)
    rw [Nat.zero_add, List.length_eq_zero_iff] at hiff
    exact ⟨lost, hlost, hiff⟩
  · obtain ⟨hlength, -⟩ := TcpTransport.header_of_frame hfits hbytes hheader
    obtain ⟨hfirst, hlen, -⟩ := bytesOf_of_done hheader
    rw [hlength] at hbody
    obtain ⟨hlong, -, -⟩ | hbody := hbody
    · omega
    · obtain ⟨⟨_, -, hpos⟩, -⟩ := bytesOf_of_failed hbody
      obtain ⟨lost, hlost, hiff⟩ := undisturbed_failed hbody (Nat.le_refl (4 + p.length))
      refine ⟨lenBuf ++ lost, by rw [hfirst, hlost, List.append_assoc], ?_⟩
      rw [undisturbed_within hheader (by omega), Nat.zero_add, hiff]
      refine iff_of_false (fun hall => by omega) ?_
      rintro ⟨hnil, -⟩
      rw [(List.append_eq_nil_iff.mp hnil).1] at hlen
      exact absurd hlen (by decide)

end Undisturbed

section Loop

variable {allowed : Option IpAddr} {peer : IpAddr} {last now : Instant}
  {packets : List (List UInt8)} {arrivals : List SocketEvent}

/-- The frames of what the loop obtains take no more bytes than arrived. -/
theorem obtained_le :
    ((obtained (receiveLoop allowed peer last now arrivals)).flatMap TcpAudioFramer.frame).length ≤
      (bytesOf arrivals).length := by
  fun_induction receiveLoop allowed peer last now arrivals with
  | case1 => exact Nat.zero_le _
  | case2 last now arrivals bytes now' rest h ih =>
    obtain ⟨lenBuf, mid, between, hheader, hbody⟩ := TcpTransport.receiveAudioPacket_done h
    obtain ⟨hfirst, hlen, -⟩ := bytesOf_of_done hheader
    obtain ⟨hsecond, -, -⟩ := bytesOf_of_done hbody
    rw [obtained, List.flatMap_cons, List.length_append, TcpAudioFramer.length_frame, hfirst,
      List.length_append, hlen, hsecond, List.length_append]
    omega
  | case3 => exact Nat.zero_le _
  | case4 => exact Nat.zero_le _
  | case5 last now arrivals kind now' rest h _ _ _ ih =>
    have hle : (bytesOf rest).length ≤ (bytesOf arrivals).length := by
      obtain ⟨lost, hlost⟩ := TcpTransport.bytesOf_of_failed h
      rw [hlost, List.length_append]
      exact Nat.le_add_left _ _
    exact ih.trans hle
  | case6 => exact Nat.zero_le _

/-- A stream that has lost bytes no longer brings all packets. -/
theorem obtained_ne_of_lost {lost : List UInt8} {rest : List SocketEvent} (hlost : lost ≠ [])
    (hbytes : lost ++ bytesOf rest = packets.flatMap TcpAudioFramer.frame) :
    obtained (receiveLoop allowed peer last now rest) ≠ packets := by
  rintro rfl
  have hle := @obtained_le allowed peer last now rest
  rw [← hbytes, List.length_append] at hle
  have hpos := List.length_pos_iff.mpr hlost
  omega

/-- A loop that stops has obtained all packets exactly if there were none left. -/
theorem obtained_iff_of_stopped {kind : IoErrorKind} {now' : Instant} {rest : List SocketEvent}
    (hfits : ∀ p ∈ packets, p.length ≤ recvBufferLen)
    (hbytes : bytesOf arrivals = packets.flatMap TcpAudioFramer.frame)
    (h : TcpTransport.receiveAudioPacket recvBufferLen now arrivals = .failed kind now' rest)
    (hstop : Transient kind → silenceLimitSecs ≤ silence last now') :
    [] = packets ↔ Undisturbed allowed peer last 0 packets arrivals := by
  cases packets with
  | nil => exact iff_of_true rfl undisturbed_nil
  | cons p ps =>
    obtain ⟨lost, -, hiff⟩ :=
      undisturbed_lost (hfits p List.mem_cons_self) (hbytes.trans List.flatMap_cons) h
    rw [hiff]
    refine iff_of_false (List.cons_ne_nil p ps).symm ?_
    rintro ⟨-, htransient, hsilence, -⟩
    exact absurd hsilence (Nat.not_lt.mpr (hstop htransient))

/-- The loop obtains the packets that were framed exactly if they arrive undisturbed. -/
theorem obtained_iff (hfits : ∀ p ∈ packets, p.length ≤ recvBufferLen)
    (hbytes : bytesOf arrivals = packets.flatMap TcpAudioFramer.frame) :
    obtained (receiveLoop allowed peer last now arrivals) = packets ↔
      Undisturbed allowed peer last 0 packets arrivals := by
  fun_induction receiveLoop allowed peer last now arrivals generalizing packets with
  | case1 last now arrivals h =>
    cases packets with
    | nil => exact iff_of_true rfl undisturbed_nil
    | cons p ps =>
      rw [List.flatMap_cons] at hbytes
      exact absurd h (TcpTransport.not_blocked_of_frame (hfits p List.mem_cons_self) hbytes)
  | case2 last now arrivals bytes now' rest h ih =>
    cases packets with
    | nil =>
      obtain ⟨lenBuf, mid, between, hheader, -⟩ := TcpTransport.receiveAudioPacket_done h
      obtain ⟨hfirst, hlen, -⟩ := bytesOf_of_done hheader
      obtain ⟨rfl, -⟩ := List.append_eq_nil_iff.mp (hfirst.symm.trans hbytes)
      nomatch hlen
    | cons p ps =>
      rw [List.flatMap_cons] at hbytes
      obtain ⟨rfl, hrest, hiff⟩ := undisturbed_packet (hfits p List.mem_cons_self) hbytes h
      rw [obtained, List.cons_eq_cons, and_iff_right rfl, hiff]
      exact ih (fun q hq => hfits q (List.mem_cons_of_mem _ hq)) hrest
  | case3 last now arrivals kind now' rest h hclosed =>
    refine obtained_iff_of_stopped hfits hbytes h fun htransient => ?_
    rcases hclosed with rfl | rfl <;> simp [Transient] at htransient
  | case4 last now arrivals kind now' rest h _ hsilence =>
    exact obtained_iff_of_stopped hfits hbytes h fun _ => hsilence
  | case5 last now arrivals kind now' rest h _ hsilence htransient ih =>
    rw [obtained]
    cases packets with
    | nil =>
      obtain ⟨lost, hlost⟩ := TcpTransport.bytesOf_of_failed h
      rw [ih hfits (List.append_eq_nil_iff.mp (hlost.symm.trans hbytes)).2]
      exact iff_of_true undisturbed_nil undisturbed_nil
    | cons p ps =>
      obtain ⟨lost, hlost, hiff⟩ :=
        undisturbed_lost (hfits p List.mem_cons_self) (hbytes.trans List.flatMap_cons) h
      rw [hiff]
      by_cases hnil : lost = []
      · subst hnil
        rw [ih hfits (hlost.symm.trans hbytes)]
        simp [htransient, Nat.not_le.mp hsilence]
      · exact iff_of_false (obtained_ne_of_lost hnil (hlost.symm.trans hbytes)) fun hall =>
          hnil hall.1
  | case6 last now arrivals kind now' rest h _ _ htransient =>
    exact obtained_iff_of_stopped hfits hbytes h fun h => absurd h htransient

end Loop

/-- The loop obtains exactly the packets the sender writes, in order, exactly if no read fails
after it has taken a byte of a packet, and none between two packets otherwise than by a timeout
less than ten seconds after the last audio. -/
theorem obtained_written_iff (allowed : Option IpAddr) (peer : IpAddr) (start : Instant)
    (calls : List TcpAudioFramer.Call) (arrivals : List SocketEvent)
    (hfits : ∀ p ∈ TcpAudioFramer.written calls, p.length ≤ recvBufferLen)
    (harrives : bytesOf arrivals = TcpAudioFramer.wire calls) :
    obtained (receiveLoop allowed peer start start arrivals) = TcpAudioFramer.written calls ↔
      Undisturbed allowed peer start 0 (TcpAudioFramer.written calls) arrivals :=
  obtained_iff hfits (harrives.trans (TcpAudioFramer.wire_eq calls))

/-- One packet of five bytes is written. -/
def onePacket : List TcpAudioFramer.Call := [.appendPacket [0, 0, 0, 1, 9], .flush]

/-- It arrives with a pause of two seconds. -/
def pausedArrivals (pause : SocketEvent) : List SocketEvent :=
  [.byte 0 1, .byte 0 1, .byte 0 1, .byte 5 1, pause, .byte 0 3000000000, .byte 0 3000000000,
    .byte 0 3000000000, .byte 1 3000000000, .byte 9 3000000000]

/-- A pause that interrupts a read does no harm. -/
theorem obtained_written_iff_interrupted :
    obtained (receiveLoop none 0 0 0 (pausedArrivals (.failed .interrupted 2000000000))) =
        TcpAudioFramer.written onePacket ↔
      Undisturbed none 0 0 0 (TcpAudioFramer.written onePacket)
        (pausedArrivals (.failed .interrupted 2000000000)) :=
  obtained_written_iff none 0 0 onePacket _ (by decide) rfl

/-- A pause in which the read times out turns the last byte into a packet of its own. -/
theorem not_obtained_written_pausedArrivals :
    ¬∀ arrivals : List SocketEvent, bytesOf arrivals = TcpAudioFramer.wire onePacket →
      obtained (receiveLoop none 0 0 0 arrivals) = TcpAudioFramer.written onePacket := by
  intro h
  have hobtained := h (pausedArrivals (.failed .timedOut 2000000000)) rfl
  have hloop : receiveLoop none 0 0 0 (pausedArrivals (.failed .timedOut 2000000000)) =
      [.timeout 0, .datagram [9] 0 2000000000 3000000000] := by
    simp [receiveLoop, pausedArrivals, TcpTransport.receiveAudioPacket, readExact,
      ReadExact.prepend, ofBeBytes, recvBufferLen, seqNumSize, formatFlagSize, maxOpusPacketSize,
      silence, silenceLimitSecs, Duration.asSecs, Instant.durationSince, Transient]
  rw [hloop] at hobtained
  cases (List.cons.inj hobtained).1

end PacketReceiver

end Gemacast.Player
