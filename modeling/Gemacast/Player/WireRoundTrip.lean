import Gemacast.Player.ReceiverRuns
import Gemacast.Streamer.Encode

/-!
# From a captured frame to a packet of the player

The sender's datagrams fit the receiver: each is read back as what was sent, none is
taken for an echo probe, and a chunk is never taken for a packet. A packet that travels
in one datagram is produced by each delivery; an uncompressed one is produced once, when
its fourth quarter arrives.
-/

namespace Gemacast.Player

open Gemacast.Core Gemacast.Jitter Gemacast.Streamer

/-- A packet as it stands on the wire. -/
def packetBytes (seqNum : UInt64) (flag : UInt8) (payload : List UInt8) : List UInt8 :=
  wordBytes seqNum ++ flag :: payload

/-- The packet is the one that was sent. -/
structure Carries (p : RawPacket) (seqNum : UInt64) (flag : UInt8)
    (payload : List UInt8) : Prop where
  seqNum : p.seqNum = seqNum
  isUncompressed : p.isUncompressed = decide (flag = formatUncompressed)
  isSilence : p.isSilence = decide (flag = formatSilence)
  payload : p.payload = payload

section Packet

variable {seqNum generation : UInt64} {flag : UInt8} {payload : List UInt8}

@[simp] theorem length_packetBytes :
    (packetBytes seqNum flag payload).length = headerLen + payload.length := by
  rw [packetBytes, List.length_append, length_wordBytes, List.length_cons, headerLen, seqNumSize,
    formatFlagSize]
  omega

theorem packetBytes_take : (packetBytes seqNum flag payload).take seqNumSize = wordBytes seqNum :=
  List.take_left' (length_wordBytes seqNum)

theorem packetBytes_flag : (packetBytes seqNum flag payload)[seqNumSize]? = some flag := by
  have hlen : (wordBytes seqNum).length = seqNumSize := length_wordBytes seqNum
  rw [packetBytes, List.getElem?_append_right hlen.le, hlen, Nat.sub_self]
  rfl

theorem packetBytes_drop : (packetBytes seqNum flag payload).drop headerLen = payload := by
  have hsplit : packetBytes seqNum flag payload = (wordBytes seqNum ++ [flag]) ++ payload := by
    rw [List.append_assoc]
    rfl
  rw [hsplit]
  refine List.drop_left' ?_
  rw [List.length_append, length_wordBytes]
  rfl

/-- A small sequence number starts with a zero byte, unlike an echo probe. -/
theorem packetBytes_ne_magic {l : List UInt8} (hseq : seqNum.toNat < 2 ^ 48)
    (hl : l.take seqNumSize = wordBytes seqNum) : l.take 2 ≠ EchoPacket.magic := by
  intro hmagic
  have hzero : (wordBytes seqNum)[0]? = some 0 :=
    getElem?_beBytes_eq_zero (by decide) (hseq.trans (by decide))
  have hfirst := congrArg (·[0]?) hmagic
  rw [← hl] at hzero
  simp only [List.getElem?_take] at hzero hfirst
  rw [if_pos (by decide)] at hzero hfirst
  rw [hzero] at hfirst
  exact absurd hfirst (by decide)

end Packet

section Single

variable {r : PacketReceiver} {seqNum generation : UInt64} {flag : UInt8} {payload : List UInt8}

/-- A packet that travels in one datagram is produced by each delivery, and the table of
chunks does not see it. -/
theorem poll_packet (source : IpAddr) (polled now : Instant) (hseq : seqNum.toNat < 2 ^ 48)
    (hflag : flag = formatOpus ∨ flag = formatSilence)
    (hpayload : payload.length ≤ maxOpusPacketSize)
    (hsource : PacketReceiver.Accepts r.allowedStreamerIp source) :
    ∃ p, (r.poll (.datagram (packetBytes seqNum flag payload) source polled now)).2 = some p ∧
      Carries p seqNum flag payload ∧ p.arrivalTime = now := by
  obtain ⟨bytes, hbytes⟩ : ∃ bytes, packetBytes seqNum flag payload = bytes := ⟨_, rfl⟩
  have hlen : bytes.length = headerLen + payload.length := by rw [← hbytes, length_packetBytes]
  have htake : bytes.take recvBufferLen = bytes :=
    List.take_of_length_le (by rw [hlen]; exact Nat.add_le_add_left hpayload headerLen)
  have hflagAt : bytes[seqNumSize]? = some flag := by rw [← hbytes, packetBytes_flag]
  have hecho : EchoPacket.isEcho bytes bytes.length = false := by
    have hmagic : bytes.take 2 ≠ EchoPacket.magic :=
      packetBytes_ne_magic hseq (by rw [← hbytes, packetBytes_take])
    simp [EchoPacket.isEcho, hmagic]
  have hformat : bytes[seqNumSize]? ≠ some PcmDatagram.format := by
    rw [hflagAt]
    rcases hflag with rfl | rfl <;> decide
  obtain ⟨p, hp⟩ := @AudioPacketDecoder.decode_isOk bytes bytes.length now
    (by rw [hlen]; exact Nat.le_add_right _ _) le_rfl
    (by rw [hlen]; exact Nat.add_le_add_left hpayload _)
    (by rw [hflagAt]; rcases hflag with rfl | rfl <;> simp)
  have hd := AudioPacketDecoder.decodes_of_decode hp
  have hbuff := @PacketReceiver.receive_take { r with assembly := r.assembly.expire polled } bytes
  rw [htake] at hbuff
  refine ⟨p, ?_, ⟨?_, ?_, ?_, ?_⟩, hd.arrivalTime⟩
  · rw [hbytes, PacketReceiver.poll_datagram htake, if_neg (not_not.mpr hsource),
      if_neg (by simp [hecho]),
      PacketReceiver.dispatch_take hbuff, if_neg hformat, hp]
  · rw [hd.seqNum, ← hbytes, packetBytes_take, ofWordBytes_wordBytes]
  · rw [hd.isUncompressed, hflagAt]
    simp only [Option.some.injEq]
  · rw [hd.isSilence, hflagAt]
    simp only [Option.some.injEq]
  · rw [hd.payload, List.take_length, ← hbytes, packetBytes_drop]

end Single

section Chunked

variable {allowed : Option IpAddr} {packet payload : List UInt8} {seqNum generation : UInt64}
  {flag : UInt8} {inputs rest : List Reception}

/-- The pass receives quarter `i` of the packet at `now` from an accepted source. -/
def Delivers (allowed : Option IpAddr) (packet : List UInt8) (generation : UInt64)
    (i : Fin pcmChunks) (now : Instant) (x : Reception) : Prop :=
  ∃ source polled, x = .datagram (PcmDatagram.encode packet generation i) source polled now ∧
    PacketReceiver.Accepts allowed source

/-- The packet is delivered: all quarters in time, in any order and any number of times,
among chunks of other frames inside the window and of older generations. -/
structure Delivery (allowed : Option IpAddr) (packet : List UInt8) (seqNum generation : UInt64)
    (inputs : List Reception) : Prop where
  in_time : ∀ i, ∃ x ∈ inputs, ∃ now, Delivers allowed packet generation i now x ∧
    ∀ y ∈ inputs, ∀ j t, Delivers allowed packet generation j t y → now - t < assemblyDeadline
  others : ∀ y ∈ inputs, ∀ c t, PacketReceiver.chunkOf allowed y = some (c, t) →
    (∃ j, Delivers allowed packet generation j t y) ∨ c.generation < generation ∨
      c.generation = generation ∧ c.sequence ≠ seqNum ∧
        c.sequence.toNat < seqNum.toNat + slotCount

/-- The pass takes out a chunk of the frame. -/
def ofFrame (allowed : Option IpAddr) (seqNum generation : UInt64) (x : Reception) : Bool :=
  (PacketReceiver.chunkOf allowed x).any fun c =>
    decide (c.1.generation = generation ∧ c.1.sequence = seqNum)

/-- What the chunks of the frame produce along a run. -/
def produced (allowed : Option IpAddr) (seqNum generation : UInt64) (inputs : List Reception) :
    List RawPacket :=
  ((PacketReceiver.machine allowed).events inputs).filterMap fun e =>
    if ofFrame allowed seqNum generation e.input then e.output else none

/-- A quarter of an uncompressed packet is no echo probe and fits the receive buffer. -/
theorem encode_received (hpayload : payload.length = pcmChunks * pcmPayload)
    (hseq : seqNum.toNat < 2 ^ 48) (i : Fin pcmChunks) :
    let d := PcmDatagram.encode (packetBytes seqNum flag payload) generation i
    d.length = PcmDatagram.size ∧ d.take recvBufferLen = d ∧
      EchoPacket.isEcho d d.length = false ∧ d[seqNumSize]? = some PcmDatagram.format := by
  intro d
  have hframe : (packetBytes seqNum flag payload).length = headerLen + pcmChunks * pcmPayload := by
    rw [length_packetBytes, hpayload]
  have hlen : d.length = PcmDatagram.size := PcmDatagram.length_encode hframe
  have hheader : seqNumSize ≤ (packetBytes seqNum flag payload).length := by
    rw [hframe]
    exact Nat.le_trans (by decide) (Nat.le_add_right _ _)
  obtain ⟨hsequence, _, _, _⟩ :=
    @PcmDatagram.encode_parts (packetBytes seqNum flag payload) generation i hheader
  have hmagic : d.take 2 ≠ EchoPacket.magic :=
    packetBytes_ne_magic hseq (hsequence.trans packetBytes_take)
  refine ⟨hlen, List.take_of_length_le (by rw [hlen]; decide), ?_,
    PcmDatagram.getElem?_encode_format hheader⟩
  simp [EchoPacket.isEcho, hmagic]

/-- A quarter that arrives from an accepted source is taken out as that quarter. -/
theorem chunkOf_of_delivers (hpayload : payload.length = pcmChunks * pcmPayload)
    (hseq : seqNum.toNat < 2 ^ 48) {i : Fin pcmChunks} {now : Instant} {x : Reception}
    (h : Delivers allowed (packetBytes seqNum flag payload) generation i now x) :
    ∃ c, PacketReceiver.chunkOf allowed x = some (c, now) ∧ c.sequence = seqNum ∧
      c.generation = generation ∧ c.index = i ∧ c.payload = block pcmPayload payload i := by
  obtain ⟨source, polled, rfl, hsource⟩ := h
  obtain ⟨_, htake, hecho, hformat⟩ :=
    @encode_received payload seqNum generation flag hpayload hseq i
  obtain ⟨c, hdecode, hsequence, hgeneration, hindex, hblock⟩ :=
    @PcmDatagram.decode_encode (packetBytes seqNum flag payload) generation i
      (by rw [length_packetBytes, hpayload])
  refine ⟨c, ?_, ?_, hgeneration, hindex, ?_⟩
  · unfold PacketReceiver.chunkOf
    dsimp only
    rw [htake, if_pos ⟨hsource, hecho, hformat⟩, hdecode]
  · rw [hsequence, packetBytes_take, ofWordBytes_wordBytes]
  · rw [hblock, packetBytes_drop]

/-- A pass of the frame takes out a chunk of it. -/
theorem ofFrame_iff {x : Reception} :
    ofFrame allowed seqNum generation x = true ↔ ∃ c, PacketReceiver.chunkOf allowed x = some c ∧
      c.1.generation = generation ∧ c.1.sequence = seqNum := by
  rw [ofFrame, Option.any_eq_true]
  simp only [decide_eq_true_eq]

/-- A produced packet is the answer of one pass of the frame. -/
theorem mem_produced_iff {p : RawPacket} :
    p ∈ produced allowed seqNum generation inputs ↔
      ∃ e ∈ (PacketReceiver.machine allowed).events inputs,
        ofFrame allowed seqNum generation e.input = true ∧ e.output = some p := by
  simp only [produced, List.mem_filterMap]
  refine exists_congr fun e => and_congr_right fun _ => ?_
  by_cases h : ofFrame allowed seqNum generation e.input = true <;> simp [h]

/-- Of two passes of a frame that follow each other, at most one answers. -/
theorem silent_after_answer {pre mid post : List Reception} {x y : Reception}
    (h : PacketReceiver.Chronological (pre ++ x :: (mid ++ y :: post)))
    (hx : ofFrame allowed seqNum generation x = true)
    (hy : ofFrame allowed seqNum generation y = true)
    (hanswer : (((PacketReceiver.machine allowed).run pre).poll x).2.isSome) :
    (((PacketReceiver.machine allowed).run (pre ++ x :: mid)).poll y).2 = none := by
  obtain ⟨c, hc, hcg, hcs⟩ := ofFrame_iff.mp hx
  obtain ⟨d, hd, hdg, hds⟩ := ofFrame_iff.mp hy
  have hreassembles := PcmAssembly.reassembles_of_chronological
    (PacketReceiver.chronological_callsOf allowed h)
  rw [PacketReceiver.output_eq_push hc] at hanswer
  rw [PacketReceiver.output_eq_push hd, PacketReceiver.callsOf_split hc, List.append_assoc]
  refine hreassembles.at_most_once _ c.1 c.2 _ d.1 d.2
    (post.flatMap (PacketReceiver.callsOf allowed))
    ?_ (hdg.trans hcg.symm) (hds.trans hcs.symm) hanswer
  rw [PacketReceiver.callsOf_split hc, List.flatMap_append, List.flatMap_cons,
    PacketReceiver.callsOf]
  simp [hd]

/-- A frame is produced at most once. -/
theorem length_produced_le (h : PacketReceiver.Chronological inputs) :
    (produced allowed seqNum generation inputs).length ≤ 1 := by
  by_contra hmany
  obtain ⟨p, q, l, hl⟩ : ∃ p q l, produced allowed seqNum generation inputs = p :: q :: l := by
    rcases hl : produced allowed seqNum generation inputs with _ | ⟨p, _ | ⟨q, l⟩⟩
    · simp [hl] at hmany
    · simp [hl] at hmany
    · exact ⟨p, q, l, rfl⟩
  obtain ⟨skipped, e, tail, hevents, _, he, htail⟩ := List.filterMap_eq_cons_iff.mp hl
  obtain ⟨skipped', e', tail', hevents', _, he', _⟩ := List.filterMap_eq_cons_iff.mp htail
  obtain ⟨pre, bs, rfl, _, hat, hrest⟩ := Machine.eventsFrom_split _ hevents
  obtain ⟨mid, post, rfl, _, hat', _⟩ := Machine.eventsFrom_split _ (hrest.symm.trans hevents')
  have hx := Option.ite_none_right_eq_some.mp he
  have hy := Option.ite_none_right_eq_some.mp he'
  have hfirst : (((PacketReceiver.machine allowed).run pre).poll e.input).2 = some p := by
    rw [← hx.2, hat]
    rfl
  have hafter : e.after = (PacketReceiver.machine allowed).runFrom
      ((PacketReceiver.machine allowed).run pre) [e.input] := by
    rw [hat]
    rfl
  have hnone := silent_after_answer h hx.1 hy.1 (by rw [hfirst]; rfl)
  have hstate : (PacketReceiver.machine allowed).run (pre ++ e.input :: mid) =
      (PacketReceiver.machine allowed).runFrom e.after mid := by
    rw [hafter, ← Machine.runFrom_append, Machine.run, Machine.run, ← Machine.runFrom_append]
    rfl
  have hsecond : e'.output = none := by
    rw [hat', Machine.eventAt_output, ← hstate]
    exact hnone
  rw [hsecond] at hy
  exact absurd hy.2 (by simp)

section Complete

variable (hpayload : payload.length = pcmChunks * pcmPayload) (hseq : seqNum.toNat < 2 ^ 48)
  (hd : Delivery allowed (packetBytes seqNum formatUncompressed payload) seqNum generation inputs)

include hpayload hseq hd

/-- A chunk of the frame that arrives is one of the sent quarters. -/
theorem quarter_of_arrival {c : Arrival}
    (hc : c ∈ inputs.filterMap (PacketReceiver.chunkOf allowed))
    (hg : c.1.generation = generation) (hs : c.1.sequence = seqNum) :
    c.1.payload = block pcmPayload payload c.1.index ∧ ∃ y ∈ inputs, ∃ j,
      Delivers allowed (packetBytes seqNum formatUncompressed payload) generation j c.2 y := by
  obtain ⟨y, hy, hchunk⟩ := List.mem_filterMap.mp hc
  rcases hd.others y hy c.1 c.2 hchunk with ⟨j, hj⟩ | hold | ⟨_, hother, _⟩
  · obtain ⟨d, hchunk', _, _, hindex, hblock⟩ := chunkOf_of_delivers hpayload hseq hj
    have hcd : c.1 = d := congrArg Prod.fst (Option.some.inj (hchunk.symm.trans hchunk'))
    exact ⟨by rw [hcd, hblock, hindex], y, hy, j, hj⟩
  · rw [hg] at hold
    exact absurd hold (UInt64.lt_irrefl generation)
  · exact absurd hs hother

/-- No arrival supersedes the frame. -/
theorem not_superseded {A B : List Arrival} {chunk : PcmChunk}
    (hA : inputs.filterMap (PacketReceiver.chunkOf allowed) = A ++ B)
    (hg : chunk.generation = generation) (hs : chunk.sequence = seqNum) :
    ¬PcmAssembly.Superseded A chunk := by
  have hnewest : ∀ c ∈ A, c.1.generation ≤ generation ∧
      (c.1.generation = generation → c.1.sequence.toNat < seqNum.toNat + slotCount) := by
    intro c hc
    have hin : c ∈ inputs.filterMap (PacketReceiver.chunkOf allowed) := by
      rw [hA]
      exact List.mem_append_left _ hc
    obtain ⟨y, hy, hchunk⟩ := List.mem_filterMap.mp hin
    rcases hd.others y hy c.1 c.2 hchunk with ⟨j, hj⟩ | hold | ⟨hsame, _, hwindow⟩
    · obtain ⟨d, hchunk', hsequence, hgeneration, _, _⟩ := chunkOf_of_delivers hpayload hseq hj
      have hcd : c.1 = d := congrArg Prod.fst (Option.some.inj (hchunk.symm.trans hchunk'))
      rw [hcd, hgeneration, hsequence]
      exact ⟨UInt64.le_refl generation, fun _ => Nat.lt_add_of_pos_right (by decide)⟩
    · exact ⟨UInt64.le_of_lt hold, fun hsame => absurd hold (hsame ▸ UInt64.lt_irrefl _)⟩
    · rw [hsame]
      exact ⟨UInt64.le_refl generation, fun _ => hwindow⟩
  rintro (⟨c, hc, hlt⟩ | ⟨c, hc, hsame, hfar⟩)
  · rw [hg] at hlt
    exact absurd hlt (UInt64.not_lt.mpr (hnewest c hc).1)
  · rw [hg] at hsame
    rw [hs] at hfar
    exact absurd ((hnewest c hc).2 hsame) (Nat.not_lt.mpr hfar)

/-- The arrival that brings the last quarter is in time. -/
theorem not_expired (h : PacketReceiver.Chronological inputs) {A B : List Arrival} {x : Arrival}
    (hA : inputs.filterMap (PacketReceiver.chunkOf allowed) = A ++ x :: B)
    (hg : x.1.generation = generation) (hs : x.1.sequence = seqNum)
    (hnew : x.1.index ∉ PcmAssembly.received A generation seqNum) :
    ¬PcmAssembly.Expired A x.1 x.2 := by
  rintro ⟨t, ht, hlate⟩
  rw [hg, hs] at ht
  obtain ⟨first, hfirst, rfl⟩ := Option.map_eq_some_iff.mp ht
  obtain ⟨hfirstA, hfg, hfs⟩ := PcmAssembly.mem_of_mem_copies (List.mem_of_mem_head? hfirst)
  obtain ⟨_, y, hy, j, hj⟩ := quarter_of_arrival hpayload hseq hd
    (by rw [hA]; exact List.mem_append_left _ hfirstA) hfg hfs
  obtain ⟨z, hz, now, hdeliver, hdeadline⟩ := hd.in_time x.1.index
  obtain ⟨c, hc, hcs, hcg, hindex, _⟩ := chunkOf_of_delivers hpayload hseq hdeliver
  have hle : x.2 ≤ now := by
    have hin : (c, now) ∈ A ++ x :: B := hA ▸ List.mem_filterMap.mpr ⟨z, hz, hc⟩
    have hsorted := PacketReceiver.pairwise_chunkOf allowed h
    rw [hA, List.pairwise_append, List.pairwise_cons] at hsorted
    rcases List.mem_append.mp hin with hbefore | hrest
    · refine absurd ?_ hnew
      simp only [PcmAssembly.received, PcmAssembly.copies, List.mem_toFinset, List.mem_map,
        List.mem_filter, decide_eq_true_eq]
      exact ⟨(c, now), ⟨hbefore, hcg, hcs⟩, hindex⟩
    · rcases List.mem_cons.mp hrest with rfl | hafter
      · exact le_rfl
      · exact hsorted.2.1.1 _ hafter
  exact absurd hlate (Nat.not_le.mpr
    (Nat.lt_of_le_of_lt (Nat.sub_le_sub_right hle first.2) (hdeadline y hy j first.2 hj)))

/-- A delivered frame is produced. -/
theorem exists_produced (h : PacketReceiver.Chronological inputs) :
    ∃ p ∈ produced allowed seqNum generation inputs,
      Carries p seqNum formatUncompressed payload := by
  obtain ⟨A, hA⟩ : ∃ A, inputs.filterMap (PacketReceiver.chunkOf allowed) = A := ⟨_, rfl⟩
  have hfull : PcmAssembly.received A generation seqNum = Finset.univ := by
    apply Finset.eq_univ_of_forall
    intro i
    obtain ⟨x, hx, now, hdeliver, _⟩ := hd.in_time i
    obtain ⟨c, hc, hcs, hcg, hindex, _⟩ := chunkOf_of_delivers hpayload hseq hdeliver
    have hin : (c, now) ∈ A := hA ▸ List.mem_filterMap.mpr ⟨x, hx, hc⟩
    simp only [PcmAssembly.received, PcmAssembly.copies, List.mem_toFinset, List.mem_map,
      List.mem_filter, decide_eq_true_eq]
    exact ⟨(c, now), ⟨hin, hcg, hcs⟩, hindex⟩
  obtain ⟨before, x, after, rfl, hg, hs, hnew, hlast⟩ :=
    PcmAssembly.exists_completing_arrival hfull
  obtain ⟨pre₁, tail, rfl, hpre₁, htail⟩ := List.filterMap_eq_append_iff.mp hA
  obtain ⟨pre₂, y, post, rfl, hpre₂, hy, _⟩ := List.filterMap_eq_cons_iff.mp htail
  have hpre : (pre₁ ++ pre₂).filterMap (PacketReceiver.chunkOf allowed) = before := by
    rw [List.filterMap_append, hpre₁, List.filterMap_eq_nil_iff.mpr hpre₂, List.append_nil]
  have hchronological := h
  rw [← List.append_assoc] at hchronological
  have hreassembles := PcmAssembly.reassembles_of_chronological
    (PacketReceiver.chronological_callsOf allowed hchronological)
  have hsplit := PacketReceiver.callsOf_split hy (pre₁ ++ pre₂) post
  obtain ⟨calls, hcalls⟩ : ∃ calls, (pre₁ ++ pre₂).flatMap (PacketReceiver.callsOf allowed) ++
      [.expire y.polled] = calls := ⟨_, rfl⟩
  have harrivals : PcmAssembly.arrivals calls = before := by
    rw [← hcalls, PcmAssembly.arrivals, List.filterMap_append, ← PcmAssembly.arrivals,
      PacketReceiver.arrivals_callsOf, hpre]
    simp
  have hcompletes : PcmAssembly.CompletesFrame (PcmAssembly.arrivals calls) x.1 x.2 := by
    rw [harrivals]
    refine ⟨not_superseded hpayload hseq hd hA hg hs,
      not_expired hpayload hseq hd h hA hg hs hnew, ?_, ?_⟩
    · rw [hg, hs]
      exact hnew
    · rw [PcmAssembly.Completed, hg, hs]
      exact hlast
  rw [hcalls] at hsplit
  obtain ⟨p, hp⟩ := Option.isSome_iff_exists.mp
    ((hreassembles.yields_iff calls x.1 x.2 _ hsplit).mpr hcompletes)
  obtain ⟨hseqNum, hu, hsilence, _, hlength, hblocks⟩ :=
    hreassembles.first_copies calls x.1 x.2 _ p hsplit hp
  refine ⟨p, mem_produced_iff.mpr ⟨(PacketReceiver.machine allowed).eventAt
    ((PacketReceiver.machine allowed).run (pre₁ ++ pre₂)) y, ?_, ?_, ?_⟩, ?_⟩
  · rw [← List.append_assoc, Machine.events, Machine.eventsFrom_append]
    exact List.mem_append_right _ List.mem_cons_self
  · exact ofFrame_iff.mpr ⟨x, hy, hg, hs⟩
  · rw [Machine.eventAt_output, ← hp, ← hcalls]
    exact PacketReceiver.output_eq_push hy (pre₁ ++ pre₂)
  · refine ⟨hseqNum.trans hs, hu.trans (by simp), hsilence.trans (by decide), ?_⟩
    refine eq_of_block_eq hlength hpayload fun i hi => ?_
    have hcopy := hblocks ⟨i, hi⟩
    rw [harrivals, hg, hs] at hcopy
    obtain ⟨c, hc, hblock⟩ := Option.map_eq_some_iff.mp hcopy
    obtain ⟨hcA, hcg, hcs⟩ := PcmAssembly.mem_of_mem_copies (List.mem_of_find?_eq_some hc)
    have hin : c ∈ before ++ x :: after := by
      rcases List.mem_append.mp hcA with hbefore | hlast
      · exact List.mem_append_left _ hbefore
      · rw [List.mem_singleton.mp hlast]
        simp
    have hindex : c.1.index = ⟨i, hi⟩ := by simpa using List.find?_some hc
    have hquarter := (quarter_of_arrival hpayload hseq hd (hA ▸ hin) hcg hcs).1
    rw [← hblock, hquarter, hindex]

end Complete

end Chunked

/-- The wire round trip of a packet, over every receiver. -/
structure RoundTrips (seqNum generation : UInt64) (flag : UInt8) (payload packet : List UInt8) :
    Prop where
  /-- The payload fits a packet of the player. -/
  payload_le : payload.length ≤ maxPacketPayload
  /-- Every datagram fits the receive buffer. -/
  fits : ∀ d ∈ UdpAudioSender.datagrams generation packet, d.length ≤ recvBufferLen
  /-- No datagram is an echo probe, whatever the buffer held before. -/
  not_echo : ∀ d ∈ UdpAudioSender.datagrams generation packet, ∀ r : PacketReceiver,
    EchoPacket.isEcho (r.receive d).recvBuff.val d.length = false
  /-- Exactly the datagrams of an uncompressed packet are read as chunks. -/
  format_iff : ∀ d ∈ UdpAudioSender.datagrams generation packet,
    d[seqNumSize]? = some PcmDatagram.format ↔ flag = formatUncompressed
  /-- Each delivery of a single datagram produces the packet. -/
  single : flag ≠ formatUncompressed → UdpAudioSender.datagrams generation packet = [packet] ∧
    ∀ (r : PacketReceiver) (source : IpAddr) (polled now : Instant),
      PacketReceiver.Accepts r.allowedStreamerIp source →
      ∃ p, (r.poll (.datagram packet source polled now)).2 = some p ∧ Carries p seqNum flag payload
  /-- The delivery of the four datagrams produces the packet once. -/
  chunked : flag = formatUncompressed →
    UdpAudioSender.datagrams generation packet =
        (List.finRange pcmChunks).map (PcmDatagram.encode packet generation) ∧
      ∀ (allowed : Option IpAddr) (inputs rest : List Reception),
        PacketReceiver.Chronological (inputs ++ rest) →
        Delivery allowed packet seqNum generation inputs →
        ∃ p, produced allowed seqNum generation (inputs ++ rest) = [p] ∧
          Carries p seqNum flag payload

/-- The samples of a frame take four bytes each. -/
theorem length_sampleBytes {F : Type} [SampleBytes F] (frame : List F) :
    (frame.flatMap SampleBytes.toBytes).length = frame.length * 4 := by
  induction frame with
  | nil => rfl
  | cons sample frame ih =>
    rw [List.flatMap_cons, List.length_append, SampleBytes.length_toBytes, ih, List.length_cons]
    omega

section Sender

variable {F : Type} [Binary32 F] [SampleBytes F] {frame : List F}
  {encoder : Option (OpusEncoder F)} {bitrate : AudioBitrate} {payload : List UInt8}
  {seqNum generation : UInt64} {flag : UInt8}

/-- What the format byte says about the payload. -/
theorem payload_cases
    (hpayload : AudioFrameEncoder.payloadBytes frame encoder bitrate = .ok payload) :
    AudioFrameEncoder.formatFlag frame bitrate = formatSilence ∧ payload = [] ∨
      AudioFrameEncoder.formatFlag frame bitrate = formatUncompressed ∧
        payload = frame.flatMap SampleBytes.toBytes ∨
      AudioFrameEncoder.formatFlag frame bitrate = formatOpus ∧
        ∃ encodeFloat, encoder = some encodeFloat ∧ encodeFloat frame = some payload := by
  unfold AudioFrameEncoder.payloadBytes at hpayload
  unfold AudioFrameEncoder.formatFlag
  split at hpayload
  · rename_i hsilence
    exact Or.inl ⟨if_pos hsilence, (Except.ok.inj hpayload).symm⟩
  · rename_i hsound
    rw [if_neg hsound]
    split at hpayload
    · rename_i hraw
      exact Or.inr (Or.inl ⟨if_pos hraw, (Except.ok.inj hpayload).symm⟩)
    · rename_i hcoded
      refine Or.inr (Or.inr ⟨if_neg hcoded, ?_⟩)
      cases encoder with
      | none => nomatch hpayload
      | some encodeFloat =>
        dsimp only at hpayload
        split at hpayload
        · nomatch hpayload
        · rename_i encoded hencoded
          rw [Except.ok.inj hpayload] at hencoded
          exact ⟨encodeFloat, rfl, hencoded⟩

/-- A packet that is not uncompressed travels as it is. -/
theorem roundTrips_single (hflag : flag = formatOpus ∨ flag = formatSilence)
    (hpayload : payload.length ≤ maxOpusPacketSize) (hseq : seqNum.toNat < 2 ^ 48) :
    RoundTrips seqNum generation flag payload (packetBytes seqNum flag payload) := by
  have hraw : flag ≠ formatUncompressed := by
    rcases hflag with rfl | rfl <;> decide
  have hdatagrams : UdpAudioSender.datagrams generation (packetBytes seqNum flag payload) =
      [packetBytes seqNum flag payload] := by
    rw [UdpAudioSender.datagrams, packetBytes_flag, if_neg fun h => hraw (Option.some.inj h)]
  have hlen : (packetBytes seqNum flag payload).length ≤ recvBufferLen := by
    rw [length_packetBytes]
    exact Nat.add_le_add_left hpayload headerLen
  refine ⟨hpayload, ?_, ?_, ?_, fun _ => ⟨hdatagrams, fun r source polled now hsource => ?_⟩,
    fun h => absurd h hraw⟩
  · intro d hmem
    rw [hdatagrams, List.mem_singleton] at hmem
    rw [hmem]
    exact hlen
  · intro d hmem r
    rw [hdatagrams, List.mem_singleton] at hmem
    have htake : d.take recvBufferLen = d := List.take_of_length_le (by rw [hmem]; exact hlen)
    have hbuff := @PacketReceiver.receive_take r d
    rw [htake] at hbuff
    have hmagic : d.take 2 ≠ EchoPacket.magic :=
      packetBytes_ne_magic hseq (by rw [hmem, packetBytes_take])
    rw [PacketReceiver.isEcho_take hbuff]
    simp [EchoPacket.isEcho, hmagic]
  · intro d hmem
    rw [hdatagrams, List.mem_singleton] at hmem
    rw [hmem, packetBytes_flag]
    rcases hflag with rfl | rfl <;> decide
  · obtain ⟨p, hp, hcarries, _⟩ :=
      poll_packet (r := r) source polled now hseq hflag hpayload hsource
    exact ⟨p, hp, hcarries⟩

/-- An uncompressed packet travels in quarters. -/
theorem roundTrips_chunked (hpayload : payload.length = pcmChunks * pcmPayload)
    (hseq : seqNum.toNat < 2 ^ 48) :
    RoundTrips seqNum generation formatUncompressed payload
      (packetBytes seqNum formatUncompressed payload) := by
  have hdatagrams : UdpAudioSender.datagrams generation
      (packetBytes seqNum formatUncompressed payload) = (List.finRange pcmChunks).map
        (PcmDatagram.encode (packetBytes seqNum formatUncompressed payload) generation) := by
    rw [UdpAudioSender.datagrams, packetBytes_flag, if_pos rfl]
  have hmember : ∀ d ∈ UdpAudioSender.datagrams generation
      (packetBytes seqNum formatUncompressed payload), ∃ i : Fin pcmChunks,
        PcmDatagram.encode (packetBytes seqNum formatUncompressed payload) generation i = d := by
    intro d hmem
    rw [hdatagrams] at hmem
    obtain ⟨i, _, hi⟩ := List.mem_map.mp hmem
    exact ⟨i, hi⟩
  refine ⟨by rw [hpayload]; decide, ?_, ?_, ?_, fun h => absurd rfl h,
    fun _ => ⟨hdatagrams, fun allowed inputs rest hchronological hd => ?_⟩⟩
  · intro d hmem
    obtain ⟨i, rfl⟩ := hmember d hmem
    rw [(encode_received hpayload hseq i).1]
    decide
  · intro d hmem r
    obtain ⟨i, rfl⟩ := hmember d hmem
    obtain ⟨_, htake, hecho, _⟩ :=
      @encode_received payload seqNum generation formatUncompressed hpayload hseq i
    have hbuff := @PacketReceiver.receive_take r
      (PcmDatagram.encode (packetBytes seqNum formatUncompressed payload) generation i)
    rw [htake] at hbuff
    rw [PacketReceiver.isEcho_take hbuff, hecho]
  · intro d hmem
    obtain ⟨i, rfl⟩ := hmember d hmem
    exact iff_of_true (encode_received hpayload hseq i).2.2.2 rfl
  · obtain ⟨p, hp, hcarries⟩ := exists_produced hpayload hseq hd
      (hchronological.sublist (by
        rw [List.flatMap_append]
        exact List.sublist_append_left _ _))
    have hmem : p ∈ produced allowed seqNum generation (inputs ++ rest) := by
      rw [produced, Machine.events, Machine.eventsFrom_append, List.filterMap_append]
      exact List.mem_append_left _ hp
    refine ⟨p, ?_, hcarries⟩
    rcases hl : produced allowed seqNum generation (inputs ++ rest) with _ | ⟨q, _ | ⟨q', l⟩⟩
    · simp [hl] at hmem
    · rw [hl, List.mem_singleton] at hmem
      rw [hmem]
    · have hle := @length_produced_le allowed seqNum generation (inputs ++ rest) hchronological
      simp [hl] at hle

/-- For every stereo frame that is encoded, every bitrate, every sequence number below
`2 ^ 48` and every generation of the sender, the packet makes the wire round trip: each
delivery of its single datagram, or the delivery of its four chunks in any order and
multiplicity, produces exactly one packet, which carries the frame's sequence number,
format and payload. -/
theorem encode_roundTrips (frame : List F) (encoder : Option (OpusEncoder F))
    (bitrate : AudioBitrate) (payload : List UInt8) (seqNum generation : UInt64)
    (hframe : frame.length = opusFrameSamples)
    (hopus : ∀ encodeFloat encoded, encoder = some encodeFloat →
      encodeFloat frame = some encoded → encoded.length ≤ maxOpusPacketSize)
    (hpayload : AudioFrameEncoder.payloadBytes frame encoder bitrate = .ok payload)
    (hseq : seqNum.toNat < 2 ^ 48) :
    ∃ packet, AudioFrameEncoder.encode frame encoder bitrate seqNum = .ok packet ∧
      RoundTrips seqNum generation (AudioFrameEncoder.formatFlag frame bitrate) payload packet := by
  refine ⟨packetBytes seqNum (AudioFrameEncoder.formatFlag frame bitrate) payload, ?_, ?_⟩
  · rw [AudioFrameEncoder.encode, if_neg (not_not.mpr hframe), hpayload]
    rfl
  · rcases payload_cases hpayload with ⟨hflag, rfl⟩ | ⟨hflag, rfl⟩ | ⟨hflag, e, he, hencoded⟩
    · rw [hflag]
      exact roundTrips_single (Or.inr rfl) (Nat.zero_le _) hseq
    · rw [hflag]
      refine roundTrips_chunked ?_ hseq
      rw [length_sampleBytes, hframe]
      rfl
    · rw [hflag]
      exact roundTrips_single (Or.inl rfl) (hopus e payload he hencoded) hseq

/-- A frame with one sample at full scale. -/
def clickFrame : List SoftFloat := 1.0 :: List.replicate 959 0.0

theorem isSilence_clickFrame : AudioFrameEncoder.isSilence clickFrame = false := by
  have hrest : ∀ n, (List.replicate n (0.0 : SoftFloat)).foldl
      (fun sumSq sample => sumSq + sample * sample) 1.0 = 1.0 := by
    intro n
    induction n with
    | zero => rfl
    | succ n ih =>
      have hstep : (1.0 : SoftFloat) + 0.0 * 0.0 = 1.0 := by decide
      rw [List.replicate_succ, List.foldl_cons, hstep, ih]
  have hsum : clickFrame.foldl (fun sumSq sample => sumSq + sample * sample) 0.0 = 1.0 := by
    have hstep : (0.0 : SoftFloat) + 1.0 * 1.0 = 1.0 := by decide
    rw [clickFrame, List.foldl_cons, hstep, hrest]
  have hlen : clickFrame.length = 960 := by
    rw [clickFrame, List.length_cons, List.length_replicate]
  rw [AudioFrameEncoder.isSilence, AudioFrameEncoder.rms, hsum, hlen]
  decide +kernel

/-- The quarters of a packet, out of order and with a duplicate. -/
def shuffled (packet : List UInt8) : List Reception :=
  [3, 1, 0, 1, 2].map fun i => .datagram (PcmDatagram.encode packet 1 i) 0 5 5

theorem delivery_shuffled (packet : List UInt8) : Delivery none packet 7 1 (shuffled packet) := by
  have hdelivers : ∀ y ∈ shuffled packet, ∃ i, y = .datagram (PcmDatagram.encode packet 1 i) 0 5 5 ∧
      Delivers none packet 1 i 5 y := by
    intro y hy
    obtain ⟨i, _, rfl⟩ := List.mem_map.mp hy
    exact ⟨i, rfl, 0, 5, rfl, rfl⟩
  constructor
  · intro i
    refine ⟨.datagram (PcmDatagram.encode packet 1 i) 0 5 5, List.mem_map.mpr ⟨i, ?_, rfl⟩, 5,
      ⟨0, 5, rfl, rfl⟩, fun y hy j t ht => ?_⟩
    · revert i
      decide
    · exact Nat.lt_of_le_of_lt (Nat.sub_le 5 t) (by decide)
  · intro y hy c t hc
    obtain ⟨i, rfl, hi⟩ := hdelivers y hy
    obtain rfl : t = 5 := PacketReceiver.chunkOf_now hc
    exact Or.inl ⟨i, hi⟩

theorem encode_roundTrips_clickFrame :
    ∃ packet, AudioFrameEncoder.encode clickFrame none .uncompressed 7 = .ok packet ∧
      ∃ p, produced none 7 1 (shuffled packet) = [p] ∧
        Carries p 7 formatUncompressed (clickFrame.flatMap SampleBytes.toBytes) := by
  have hflag : AudioFrameEncoder.formatFlag clickFrame .uncompressed = formatUncompressed := by
    simp [AudioFrameEncoder.formatFlag, isSilence_clickFrame]
  obtain ⟨packet, hencode, hround⟩ := encode_roundTrips clickFrame none .uncompressed
    (clickFrame.flatMap SampleBytes.toBytes) 7 1
    (by rw [clickFrame, List.length_cons, List.length_replicate]; rfl) (by simp)
    (by simp [AudioFrameEncoder.payloadBytes, isSilence_clickFrame]) (by decide)
  rw [hflag] at hround
  obtain ⟨_, hproduced⟩ := hround.chunked rfl
  obtain ⟨p, hp, hcarries⟩ := hproduced none (shuffled packet) []
    (by simp [shuffled, PacketReceiver.Chronological, PacketReceiver.instants])
    (delivery_shuffled packet)
  rw [List.append_nil] at hp
  exact ⟨packet, hencode, p, hp, hcarries⟩

end Sender

end Gemacast.Player
