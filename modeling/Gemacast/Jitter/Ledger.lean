import Gemacast.Jitter.Packets
import Gemacast.Jitter.Starvation

/-!
# The packet ledger

Every accepted arrival is played, staged, shed, discarded by a flush, rejected as
stale, or still stored, except for those lost without a count: a packet that an
insertion overwrites or pushes out of the window, and one that a gap skip passes.
The ledger of a run closes exactly when no step loses a packet.
-/

set_option linter.unusedSectionVars false

namespace Gemacast.Jitter

open Gemacast.Core

namespace JitterBuffer

variable {b : JitterBuffer} {Q : RawPacket → Prop}

/-- The insertion loses nothing: the packet is rejected, or its number is new and it lies
in the window or at most half a window above everything stored. -/
def InsertsSafely (b : JitterBuffer) (p : RawPacket) : Prop :=
  b.IsStale p ∨ p.seq ∉ b.stored ∧
    (p.seq < b.playhead + bufferCapacity ∨ ∀ k ∈ b.stored, p.seq ≤ k + bufferCapacity / 2)

/-- The playhead an insertion at or above the playhead stores under. -/
theorem opened_playhead (hi : b.initialized = true) {p : RawPacket} (hle : b.playhead ≤ p.seq)
    (hfit : b.playhead + bufferCapacity < 2 ^ 64) :
    (b.opened p).playhead =
      if p.seq < b.playhead + bufferCapacity then b.playhead else p.seq - bufferCapacity / 2 := by
  have hsum : (b.nextPlaySeq + capacity).toNat = b.playhead + bufferCapacity :=
    toNat_add_of_lt (by rw [capacity_toNat]; exact hfit)
  have hanchor : b.anchor p = b := by simp [anchor, hi]
  have hopened : b.opened p = b.makeRoom p := by
    simp only [opened, hanchor, seqNum_lt_iff, Nat.not_lt.mpr hle, if_false]
  rw [hopened]
  unfold makeRoom
  by_cases hnear : p.seq < b.playhead + bufferCapacity
  · have hnot : ¬b.nextPlaySeq + capacity ≤ p.seqNum := by
      rw [UInt64.le_iff_toNat_le, hsum]
      exact Nat.not_le.mpr hnear
    rw [if_pos hnear, if_neg hnot]
  · have hfar : b.nextPlaySeq + capacity ≤ p.seqNum := by
      rw [UInt64.le_iff_toNat_le, hsum]
      exact Nat.not_lt.mp hnear
    rw [if_neg hnear, if_pos hfar, skipTo_playhead, toNat_saturatingSub]
    rfl

/-- The numbers stored after an accepted insertion. -/
theorem Sound.insert_stored (h : b.Sound Q) {p : RawPacket}
    (hroom : p.seq + bufferCapacity < 2 ^ 64) (hstale : ¬b.IsStale p) (hrestart : ¬b.Restarts p) :
    (b.insert p).1.stored =
      Insert.insert p.seq (b.stored.filter ((b.opened p).playhead ≤ ·)) := by
  obtain ⟨hw, hi, hlo, hhi, -, hkept⟩ := h.wellFormed.opened (h.insertFits hroom) hstale
  obtain ⟨hs, -⟩ | ⟨-, heq, -⟩ := h.insert_cases hroom
  · exact absurd hs hstale
  · rw [heq, hw.store_stored hi hlo hhi, stored_of_dropBelow (hkept hrestart).1]

/-- An accepted insertion passes no stored packet exactly when none is stored, the packet
lies in the window, or everything stored is at most half a window below it. -/
theorem Sound.opened_le_iff (h : b.Sound Q) {p : RawPacket} (hstale : ¬b.IsStale p)
    (hrestart : ¬b.Restarts p) :
    (∀ k ∈ b.stored, (b.opened p).playhead ≤ k) ↔
      (p.seq < b.playhead + bufferCapacity ∨ ∀ k ∈ b.stored, p.seq ≤ k + bufferCapacity / 2) := by
  cases hi : b.initialized with
  | false =>
    have hempty := h.wellFormed.stored_of_virgin hi
    simp [hempty]
  | true =>
    have hle : b.playhead ≤ p.seq := by
      by_contra hlt
      have hclose : b.playhead ≤ p.seq + bufferCapacity :=
        Nat.le_of_not_lt fun hfar => hrestart ⟨hi, hfar⟩
      exact hstale ⟨hi, by omega, hclose⟩
    by_cases hnear : p.seq < b.playhead + bufferCapacity
    · have hall : ∀ k ∈ b.stored, (b.opened p).playhead ≤ k := by
        intro k hk
        have := h.playhead_fits ⟨k, hk⟩
        rw [opened_playhead hi hle this, if_pos hnear]
        exact (h.wellFormed.mem_window hk).1
      exact iff_of_true hall (Or.inl hnear)
    · rw [or_iff_right hnear]
      refine forall₂_congr fun k hk => ?_
      rw [opened_playhead hi hle (h.playhead_fits ⟨k, hk⟩), if_neg hnear]
      omega

/-- An accepted insertion adds at most one packet, and exactly one when it loses none. -/
theorem Sound.insert_occupied (h : b.Sound Q) {p : RawPacket}
    (hroom : p.seq + bufferCapacity < 2 ^ 64) (hstale : ¬b.IsStale p) (hrestart : ¬b.Restarts p) :
    (b.insert p).1.occupiedCount ≤ b.occupiedCount + 1 ∧
      ((b.insert p).1.occupiedCount = b.occupiedCount + 1 ↔ b.InsertsSafely p) := by
  have hsound : (b.insert p).1.WellFormed := h.wellFormed.insert (h.insertFits hroom)
  have hle : (b.opened p).playhead ≤ p.seq :=
    (h.wellFormed.opened (h.insertFits hroom) hstale).2.2.1
  rw [hsound.occupiedCount_eq, h.wellFormed.occupiedCount_eq, h.insert_stored hroom hstale hrestart,
    InsertsSafely, or_iff_right hstale, ← h.opened_le_iff hstale hrestart]
  generalize hkept : b.stored.filter ((b.opened p).playhead ≤ ·) = kept
  have hfilter : kept.card ≤ b.stored.card := hkept ▸ Finset.card_filter_le _ _
  have hinsert := Finset.card_insert_le p.seq kept
  refine ⟨by omega, fun hcard => ?_, fun ⟨hnew, hall⟩ => ?_⟩
  · refine ⟨fun hmem => ?_, ?_⟩
    · have hmem' : p.seq ∈ kept := hkept ▸ Finset.mem_filter.mpr ⟨hmem, hle⟩
      rw [Finset.insert_eq_of_mem hmem'] at hcard
      omega
    · rw [← Finset.filter_eq_self, hkept]
      exact Finset.eq_of_subset_of_card_le (hkept ▸ Finset.filter_subset _ _) (by omega)
  · rw [← hkept, Finset.filter_true_of_mem hall, Finset.card_insert_of_notMem hnew]

end JitterBuffer

/-- Packets the depth line reports as counted out. -/
def DepthLine.counted (line : DepthLine) : ℕ := line.played + line.tally.sinks

namespace JitterBufferManager

variable {F : Type} [Binary32 F] [FrameMark F] {C : Codec F} {m : JitterBufferManager C}
  {ctx : FrameContext} {Q : RawPacket → Prop}

section Ingest

/-- The accepted arrivals among the packets, each with the state that takes it. -/
def arrivalsOf (m : JitterBufferManager C) :
    List RawPacket → List (JitterBufferManager C × RawPacket)
  | [] => []
  | pkt :: pkts =>
    (if (m.stats.observe pkt.seqNum pkt.arrivalTime).2 then [(m, pkt)] else []) ++
      (m.ingestPacket pkt).arrivalsOf pkts

/-- Packets an insertion loses. -/
def insertLoss (b : JitterBuffer) (pkt : RawPacket) : ℕ :=
  if b.IsStale pkt then 0 else b.occupiedCount + 1 - (b.insert pkt).1.occupiedCount

/-- Packets lost while the given packets are taken. -/
def ingestLoss (m : JitterBufferManager C) (pkts : List RawPacket) : ℕ :=
  ((m.arrivalsOf pkts).map fun arrival => insertLoss arrival.1.buffer arrival.2).sum

theorem insertLoss_eq_zero (h : m.buffer.Sound Q) {pkt : RawPacket}
    (hroom : pkt.seq + bufferCapacity < 2 ^ 64) (hrestart : ¬m.buffer.Restarts pkt) :
    insertLoss m.buffer pkt = 0 ↔ m.buffer.InsertsSafely pkt := by
  unfold insertLoss
  by_cases hstale : m.buffer.IsStale pkt
  · rw [if_pos hstale]
    exact iff_of_true rfl (Or.inl hstale)
  · obtain ⟨hle, hiff⟩ := h.insert_occupied hroom hstale hrestart
    rw [if_neg hstale, ← hiff]
    omega

/-- A rejected packet changes nothing. -/
theorem ingestPacket_of_rejected {pkt : RawPacket}
    (hrejected : (m.stats.observe pkt.seqNum pkt.arrivalTime).2 = false) :
    m.ingestPacket pkt = m := by
  unfold ingestPacket
  split
  · rfl
  · rename_i heq
    rw [heq] at hrejected
    nomatch hrejected

/-- An accepted arrival is stored, rejected as stale, or costs a stored packet. -/
theorem ingestPacket_of_accepted (h : m.buffer.Sound Q) {pkt : RawPacket}
    (hroom : pkt.seq + bufferCapacity < 2 ^ 64)
    (haccepted : (m.stats.observe pkt.seqNum pkt.arrivalTime).2 = true)
    (hrestart : ¬m.buffer.Restarts pkt) :
    (m.ingestPacket pkt).onBooks + insertLoss m.buffer pkt = m.onBooks + 1 ∧
      (m.ingestPacket pkt).stats.arrivalCount = m.stats.arrivalCount + 1 := by
  have hcount := m.stats.observe_arrivalCount pkt.seqNum pkt.arrivalTime
  rw [haccepted, if_pos rfl] at hcount
  have hobserve : m.stats.observe pkt.seqNum pkt.arrivalTime =
      ((m.stats.observe pkt.seqNum pkt.arrivalTime).1, true) := Prod.ext rfl haccepted
  unfold ingestPacket
  rw [hobserve]
  rcases m.buffer.insert_cases pkt with ⟨hstale, heq⟩ | ⟨hr, -⟩ | ⟨hstale, -, heq⟩
  · rw [heq, insertLoss, if_pos hstale]
    refine ⟨?_, hcount⟩
    simp only [onBooks, counted, rejectStale, count, TimescaleTally.sinks]
    omega
  · exact absurd hr hrestart
  · obtain ⟨hle, -⟩ := h.insert_occupied hroom hstale hrestart
    rw [insertLoss, if_neg hstale]
    rw [heq] at hle ⊢
    dsimp only at hle ⊢
    refine ⟨?_, hcount⟩
    simp only [onBooks, counted]
    omega

/-- The books after packets were taken. -/
theorem ingestPackets_ledger (h : m.buffer.Sound Q) {pkts : List RawPacket}
    (hpkts : ∀ pkt ∈ pkts, pkt.seq + bufferCapacity < 2 ^ 64 ∧ Q pkt)
    (hrestart : ∀ arrival ∈ m.arrivalsOf pkts, ¬arrival.1.buffer.Restarts arrival.2) :
    (m.ingestPackets pkts).onBooks + m.ingestLoss pkts + m.stats.arrivalCount =
        m.onBooks + (m.ingestPackets pkts).stats.arrivalCount ∧
      (m.ingestLoss pkts = 0 ↔
        ∀ arrival ∈ m.arrivalsOf pkts, arrival.1.buffer.InsertsSafely arrival.2) := by
  induction pkts generalizing m with
  | nil => exact ⟨rfl, iff_of_true rfl (by simp [arrivalsOf])⟩
  | cons pkt pkts ih =>
    obtain ⟨hroom, hQ⟩ := hpkts pkt List.mem_cons_self
    have hrest := fun q hq => hpkts q (List.mem_cons_of_mem _ hq)
    have hsound := ingestPacket_sound h hroom hQ
    unfold arrivalsOf at hrestart
    obtain ⟨hbooks, hiff⟩ := ih hsound hrest fun arrival harrival =>
      hrestart arrival (List.mem_append_right _ harrival)
    change ((m.ingestPacket pkt).ingestPackets pkts).onBooks + _ + _ =
      _ + ((m.ingestPacket pkt).ingestPackets pkts).stats.arrivalCount ∧ _
    unfold ingestLoss at hbooks hiff ⊢
    rw [arrivalsOf]
    cases hobserved : (m.stats.observe pkt.seqNum pkt.arrivalTime).2 with
    | false =>
      rw [ingestPacket_of_rejected hobserved] at hbooks hiff ⊢
      simp only [Bool.false_eq_true, if_false, List.nil_append]
      exact ⟨hbooks, hiff⟩
    | true =>
      rw [hobserved, if_pos rfl] at hrestart
      have hfirst := hrestart (m, pkt) (by simp)
      obtain ⟨hone, hcount⟩ := ingestPacket_of_accepted h hroom hobserved hfirst
      simp only [if_true, List.map_append, List.map_cons, List.map_nil, List.sum_append,
        List.sum_cons, List.sum_nil, List.mem_append, List.mem_singleton, or_imp,
        forall_and, forall_eq, Nat.add_eq_zero_iff, add_zero]
      exact ⟨by omega, and_congr (insertLoss_eq_zero h hroom hfirst) hiff⟩

end Ingest

section Callback

/-- The gap skip, if one is due, passes no stored packet. -/
def SkipsSafely (g : JitterBufferManager C) (ctx : FrameContext) : Prop :=
  g.AtGap → ∀ lo ∈ g.buffer.lowestAvailableSeq.2, g.SkipsTo ctx lo →
    ∀ k ∈ g.buffer.stored, lo.toNat ≤ k

/-- Packets a gap skip passes. -/
def skipLoss (g : JitterBufferManager C) (ctx : FrameContext) : ℕ :=
  g.buffer.occupiedCount - (g.tryFastForwardOverGap ctx).buffer.occupiedCount

theorem skipLoss_eq_zero (h : m.buffer.Sound Q) (ctx : FrameContext) :
    m.skipLoss ctx = 0 ↔ m.SkipsSafely ctx := by
  unfold skipLoss SkipsSafely
  rcases tryFastForwardOverGap_cases h ctx with
    ⟨hgap, heq⟩ | ⟨hgap, lo, hlo, ⟨hstay, heq⟩ | ⟨hskip, heq⟩⟩
  · rw [heq]
    exact iff_of_true (Nat.sub_self _) fun hat => absurd hat hgap
  · rw [heq]
    have hsame : m.waited.buffer.occupiedCount = m.buffer.occupiedCount := by
      change m.buffer.lowestAvailableSeq.1.occupiedCount = _
      rw [h.lowestAvailableSeq.wellFormed.occupiedCount_eq, h.wellFormed.occupiedCount_eq,
        JitterBuffer.lowestAvailableSeq_stored]
    refine iff_of_true (by rw [hsame, Nat.sub_self]) fun _ lo' hlo' hskip => ?_
    obtain rfl : lo = lo' := Option.some.inj (hlo.symm.trans hlo')
    exact absurd hskip hstay
  · have hmem : lo.toNat ∈ m.buffer.lowestAvailableSeq.1.stored := by
      rw [JitterBuffer.lowestAvailableSeq_stored]
      exact h.lowestAvailableSeq_mem hlo
    have hs := h.lowestAvailableSeq
    obtain ⟨hfwd, hplay⟩ := hs.fastForward_onwards hmem
    have hcard : (m.buffer.lowestAvailableSeq.1.fastForward lo).stored =
        m.buffer.stored.filter (lo.toNat ≤ ·) := by
      rw [hfwd, JitterBuffer.lowestAvailableSeq_stored]
      rfl
    have hocc : (m.tryFastForwardOverGap ctx).buffer.occupiedCount =
        (m.buffer.stored.filter (lo.toNat ≤ ·)).card := by
      rw [heq, skipGapTo_buffer]
      change (m.buffer.lowestAvailableSeq.1.fastForward lo).occupiedCount = _
      rw [(hs.fastForward hmem).wellFormed.occupiedCount_eq, hcard]
    rw [hocc, h.wellFormed.occupiedCount_eq, Nat.sub_eq_zero_iff_le]
    constructor
    · intro hle _ lo' hlo' _
      obtain rfl : lo = lo' := Option.some.inj (hlo.symm.trans hlo')
      rw [← Finset.filter_eq_self]
      exact Finset.eq_of_subset_of_card_le (Finset.filter_subset _ _) hle
    · intro hsafe
      rw [Finset.filter_true_of_mem (hsafe hgap lo hlo hskip)]

/-- The depth line takes the counts it reports out of the window. -/
theorem resolveTarget_books (m : JitterBufferManager C) (tick : Tick F) :
    (m.resolveTarget tick).1.onBooks + ((m.resolveTarget tick).2.2.map DepthLine.counted).getD 0 =
        m.onBooks ∧
      (m.resolveTarget tick).1.stats.arrivalCount +
          ((m.resolveTarget tick).2.2.map DepthLine.arrivals).getD 0 = m.stats.arrivalCount := by
  unfold resolveTarget
  dsimp only
  unfold logDepthAuthority
  dsimp only
  split
  · exact ⟨rfl, rfl⟩
  · refine ⟨?_, Nat.zero_add _⟩
    simp only [onBooks, counted, LogWindow.rotate, DepthLine.counted, TimescaleTally.sinks,
      TimescaleTally.zero, Option.map_some, Option.getD_some]
    omega

/-- The books once the depth is settled. -/
theorem settleDepth_books (h : m.buffer.Sound Q) (tick : Tick F) :
    (m.settleDepth tick).1.buffer.Sound Q ∧
      (m.settleDepth tick).1.onBooks + ((m.settleDepth tick).2.2.map DepthLine.counted).getD 0 =
        m.onBooks ∧
      (m.settleDepth tick).1.stats.arrivalCount +
          ((m.settleDepth tick).2.2.map DepthLine.arrivals).getD 0 = m.stats.arrivalCount := by
  obtain ⟨m', hbefore, hafter, hline⟩ := m.settleDepth_cases tick
  have hspends := hbefore.spends h
  obtain ⟨hbooks, harrivals⟩ := m'.resolveTarget_books tick
  have hresolved : (m'.resolveTarget tick).1.buffer.Sound Q := by
    rw [(m'.resolveTarget_keeps tick).buffer]
    exact hspends.sound
  have hspends' := hafter.spends hresolved
  rw [hline, hspends'.books, hspends'.arrivals, hbooks, harrivals]
  exact ⟨hspends'.sound, hspends.books, hspends.arrivals⟩

/-- Packets a callback passes over a gap. -/
def callbackLoss (m : JitterBufferManager C) (tick : Tick F) : ℕ :=
  ((m.gapPoint tick).map fun point => point.1.skipLoss point.2).getD 0

/-- The books after a callback that does not reset the stream. -/
theorem processNextFrame_ledger (h : m.buffer.Sound Q) (tick : Tick F)
    (hreset : ∀ e ∈ (m.processNextFrame tick).1.emissions, e.source ≠ .resetSilence) :
    (m.processNextFrame tick).1.onBooks +
          ((m.processNextFrame tick).2.map DepthLine.counted).getD 0 + m.callbackLoss tick =
        m.onBooks ∧
      (m.processNextFrame tick).1.stats.arrivalCount +
          ((m.processNextFrame tick).2.map DepthLine.arrivals).getD 0 = m.stats.arrivalCount := by
  obtain ⟨hsound, hbooks, harrivals⟩ := settleDepth_books h tick
  have hline : (m.processNextFrame tick).2 = (m.settleDepth tick).2.2 := by
    unfold processNextFrame
    dsimp only
    split <;> rfl
  rw [hline]
  rcases m.processNextFrame_cases tick with ⟨hnone, -, -, heq⟩ | ⟨p, ctx, hp, heq⟩
  · have hloss : m.callbackLoss tick = 0 := by
      rw [callbackLoss, Option.map_eq_none_iff.mp hnone]
      rfl
    rw [heq] at hreset ⊢
    obtain ⟨-, -, flow, hheld⟩ | ⟨flow, hheld, -⟩ := (m.settleDepth tick).1.hold_cases
    · rw [hheld] at hreset
      exact absurd rfl (hreset _ (List.mem_append_right _ List.mem_cons_self))
    · have hspends := generatePlc_spends (m := { (m.settleDepth tick).1 with flow }) hsound
      rw [hheld, hspends.books, hspends.arrivals, hloss]
      exact ⟨hbooks, harrivals⟩
  · obtain ⟨g, hg, rfl⟩ := framePoint_cases hp
    have hspends := (gapPoint_cases hg).2.spends hsound
    have hskipped := (tryFastForwardOverGap_spec hspends.sound ctx).1
    obtain ⟨hgap, hgapArrivals⟩ := tryFastForwardOverGap_books hspends.sound ctx
    have hloss : m.callbackLoss tick = g.skipLoss ctx := by
      rw [callbackLoss, hg]
      rfl
    have hend : (g.tryFastForwardOverGap ctx).Spends Q
        ((g.tryFastForwardOverGap ctx).playOrMiss ctx) := by
      rw [heq] at hreset
      unfold playOrMiss at hreset ⊢
      split at hreset
      · rename_i hnext
        rw [if_pos hnext]
        exact (playNextFrame_spends hskipped hnext ctx).1
      · rename_i hmiss
        rw [if_neg hmiss]
        obtain ⟨-, flow, hmissed⟩ | ⟨-, flow, hmissed, -⟩ :=
          (g.tryFastForwardOverGap ctx).handleMissingFrame_cases ctx
        · rw [hmissed] at hreset
          exact absurd rfl (hreset _ (List.mem_append_right _ List.mem_cons_self))
        · have hplc := generatePlc_spends
            (m := { g.tryFastForwardOverGap ctx with flow }) hskipped
          rw [hmissed]
          exact ⟨hplc.sound, hplc.onwards, hplc.books, hplc.arrivals⟩
    rw [heq, hend.books, hend.arrivals, hloss, hgapArrivals, hspends.arrivals]
    refine ⟨?_, harrivals⟩
    have := hspends.books
    rw [skipLoss]
    omega

end Callback

section Run

/-- Packets one step loses. -/
def loss (m : JitterBufferManager C) : Input F → ℕ
  | .ingest pkts => m.ingestLoss pkts
  | .callback tick =>
    if m.playbackBuf.isEmpty then callbackLoss { m with emissions := [] } tick else 0
  | _ => 0

/-- Every arrival is inserted safely, and a gap skip passes no stored packet. -/
def LosesNothing (m : JitterBufferManager C) : Input F → Prop
  | .ingest pkts =>
    ∀ arrival ∈ m.arrivalsOf pkts, arrival.1.buffer.InsertsSafely arrival.2
  | .callback tick =>
    m.playbackBuf.isEmpty = true →
      ∀ point ∈ gapPoint { m with emissions := [] } tick, point.1.SkipsSafely point.2
  | _ => True

/-- The step neither resets nor restarts the stream. -/
def Uninterrupted (m : JitterBufferManager C) : Input F → Prop
  | .ingest pkts => ∀ arrival ∈ m.arrivalsOf pkts, ¬arrival.1.buffer.Restarts arrival.2
  | .callback tick =>
    m.playbackBuf.isEmpty = true →
      ∀ e ∈ (m.step (.callback tick)).1.emissions, e.source ≠ .resetSilence
  | .consume _ => True
  | .reset => False

/-- Arrivals accepted along the events that lead to `m`. -/
def arrivals (events : List (PlayerEvent C)) (m : JitterBufferManager C) : ℕ :=
  (events.map fun e => (e.output.map DepthLine.arrivals).getD 0).sum + m.stats.arrivalCount

/-- Packets played, staged, shed, discarded or rejected along the events that lead to
`m`, and packets still stored. -/
def accounted (events : List (PlayerEvent C)) (m : JitterBufferManager C) : ℕ :=
  (events.map fun e => (e.output.map DepthLine.counted).getD 0).sum + m.onBooks

/-- Packets lost along the events. -/
def lost (events : List (PlayerEvent C)) : ℕ := (events.map fun e => e.before.loss e.input).sum

/-- The ledger of one step. -/
theorem step_ledger (h : m.buffer.Sound Q) {i : Input F} (hi : i.Admits Q)
    (hgoes : m.Uninterrupted i) :
    (m.step i).1.onBooks + ((m.step i).2.map DepthLine.counted).getD 0 + m.loss i +
          m.stats.arrivalCount =
        m.onBooks + ((m.step i).1.stats.arrivalCount +
          ((m.step i).2.map DepthLine.arrivals).getD 0) ∧
      (m.loss i = 0 ↔ m.LosesNothing i) := by
  cases i with
  | ingest pkts =>
    obtain ⟨hbooks, hiff⟩ := ingestPackets_ledger h hi hgoes
    exact ⟨hbooks, hiff⟩
  | callback tick =>
    unfold Uninterrupted step at hgoes
    unfold loss LosesNothing step
    dsimp only at hgoes ⊢
    by_cases hempty : m.playbackBuf.isEmpty = true
    · rw [if_pos hempty] at hgoes
      simp only [hempty, if_true, true_imp_iff]
      obtain ⟨hbooks, harrivals⟩ :=
        processNextFrame_ledger (m := { m with emissions := [] }) h tick (hgoes hempty)
      have hstart : onBooks { m with emissions := [] } = m.onBooks := rfl
      have hstart' : ({ m with emissions := [] } : JitterBufferManager C).stats = m.stats := rfl
      rw [hstart] at hbooks
      rw [hstart'] at harrivals
      refine ⟨by omega, ?_⟩
      unfold callbackLoss
      cases hgap : gapPoint { m with emissions := [] } tick with
      | none => simp
      | some point =>
        have hsound : point.1.buffer.Sound Q := by
          obtain ⟨-, hsettle⟩ := @gapPoint_cases _ _ _ _ _ point.2 _ _ hgap
          exact (hsettle.spends
            (settleDepth_books (m := { m with emissions := [] }) h tick).1).sound
        simpa using skipLoss_eq_zero hsound point.2
    · exact ⟨by simp [hempty], by simp [hempty]⟩
  | consume take => exact
      ⟨by simp only [step, loss, onBooks, counted]; rfl, by simp [loss, LosesNothing]⟩
  | reset => exact hgoes.elim

/-- The ledger of a run from any sound state. -/
theorem run_ledger (M : Machine (JitterBufferManager C) (Input F) (Option DepthLine))
    (hM : M.step = step) (h : m.buffer.Sound Q) {inputs : List (Input F)}
    (hinputs : ∀ i ∈ inputs, i.Admits Q)
    (hgoes : ∀ e ∈ M.eventsFrom m inputs, e.before.Uninterrupted e.input) :
    accounted (M.eventsFrom m inputs) (M.runFrom m inputs) + lost (M.eventsFrom m inputs) +
          m.stats.arrivalCount =
        m.onBooks + arrivals (M.eventsFrom m inputs) (M.runFrom m inputs) ∧
      (lost (M.eventsFrom m inputs) = 0 ↔
        ∀ e ∈ M.eventsFrom m inputs, e.before.LosesNothing e.input) := by
  induction inputs generalizing m with
  | nil => exact ⟨by simp [accounted, arrivals, lost], by simp [lost]⟩
  | cons i inputs ih =>
    have hi := hinputs i List.mem_cons_self
    have hfirst := hgoes (M.eventAt m i) (by simp)
    obtain ⟨hone, hone'⟩ := step_ledger h hi hfirst
    have hsound : (M.step m i).1.buffer.Sound Q := by
      rw [hM]
      exact step_sound h hi
    obtain ⟨hrest, hrest'⟩ := ih hsound (fun j hj => hinputs j (List.mem_cons_of_mem _ hj))
      fun e he => hgoes e (by simp [he])
    rw [hM] at hrest hrest'
    simp only [accounted, arrivals, lost, Machine.eventsFrom_cons, Machine.runFrom_cons,
      List.map_cons, List.sum_cons, Machine.eventAt_output, Machine.eventAt_before,
      Machine.eventAt_input, List.forall_mem_cons, Nat.add_eq_zero_iff, hM] at hrest hrest' ⊢
    exact ⟨by omega, and_congr hone' hrest'⟩

/-- The numbers of the packets taken leave room for the capacity in a `u64`. -/
def Input.LeavesRoom : Input F → Prop
  | .ingest pkts => ∀ pkt ∈ pkts, pkt.seq + bufferCapacity < 2 ^ 64
  | _ => True

theorem Input.LeavesRoom.admits {i : Input F} (h : i.LeavesRoom) : i.Admits fun _ => True := by
  cases i with
  | ingest pkts => exact fun pkt hpkt => ⟨h pkt hpkt, trivial⟩
  | callback _ | consume _ | reset => trivial

/-- The buffer stays sound in every run whose insertions do not wrap. -/
theorem sound_of_run (C : Codec F) (config : JitterConfig F) (networkLink : NetworkLink)
    (clock : Instant) (inputs : List (Input F)) (hroom : ∀ i ∈ inputs, i.LeavesRoom) :
    ((machine C config networkLink clock).run inputs).buffer.Sound fun _ => True :=
  ((machine C config networkLink clock).invariant (I := fun m => m.buffer.Sound fun _ => True)
    (p := fun _ i => i.LeavesRoom) JitterBuffer.Sound.new (fun _ _ h hi => step_sound h hi.admits)
    fun _ he => hroom _ ((machine C config networkLink clock).input_mem he)).2

/-- The ledger of an uninterrupted run whose insertions do not wrap closes exactly when
no step loses a packet. -/
theorem ledger_closes_iff (C : Codec F) (config : JitterConfig F) (networkLink : NetworkLink)
    (clock : Instant) (inputs : List (Input F)) (hroom : ∀ i ∈ inputs, i.LeavesRoom)
    (hgoes : ∀ e ∈ (machine C config networkLink clock).events inputs,
      e.before.Uninterrupted e.input) :
    arrivals ((machine C config networkLink clock).events inputs)
          ((machine C config networkLink clock).run inputs) =
        accounted ((machine C config networkLink clock).events inputs)
          ((machine C config networkLink clock).run inputs) ↔
      ∀ e ∈ (machine C config networkLink clock).events inputs, e.before.LosesNothing e.input := by
  obtain ⟨hledger, hlost⟩ := run_ledger (machine C config networkLink clock) rfl
    (m := new C config networkLink clock) JitterBuffer.Sound.new (fun i hi => (hroom i hi).admits)
    hgoes
  have hempty : onBooks (new C config networkLink clock) = 0 ∧
      (new C config networkLink clock).stats.arrivalCount = 0 := ⟨rfl, rfl⟩
  rw [hempty.1, hempty.2] at hledger
  refine Iff.trans ?_ hlost
  unfold Machine.events Machine.run
  change arrivals (Machine.eventsFrom _ (new C config networkLink clock) inputs)
    (Machine.runFrom _ (new C config networkLink clock) inputs) =
      accounted (Machine.eventsFrom _ (new C config networkLink clock) inputs)
        (Machine.runFrom _ (new C config networkLink clock) inputs) ↔ _
  omega

instance : DecidablePred (Input.LeavesRoom (F := F)) := fun i =>
  match i with
  | .ingest pkts => inferInstanceAs (Decidable (∀ pkt ∈ pkts, pkt.seq + bufferCapacity < 2 ^ 64))
  | .callback _ | .consume _ | .reset => isTrue trivial

instance (b : JitterBuffer) (p : RawPacket) : Decidable (b.InsertsSafely p) :=
  inferInstanceAs (Decidable (_ ∨ _))

instance (g : JitterBufferManager C) (ctx : FrameContext) : Decidable (g.SkipsSafely ctx) :=
  inferInstanceAs (Decidable ((_ ∧ _) → ∀ lo ∈ g.buffer.lowestAvailableSeq.2, (_ ∨ _) →
    ∀ k ∈ g.buffer.stored, lo.toNat ≤ k))

instance (m : JitterBufferManager C) : DecidablePred m.LosesNothing := fun i =>
  match i with
  | .ingest pkts => inferInstanceAs (Decidable (∀ arrival ∈ m.arrivalsOf pkts, _))
  | .callback tick => inferInstanceAs (Decidable (_ → ∀ point ∈ gapPoint _ tick, _))
  | .consume _ | .reset => isTrue trivial

instance [DecidableEq F] (m : JitterBufferManager C) : DecidablePred m.Uninterrupted := fun i =>
  match i with
  | .ingest pkts => inferInstanceAs (Decidable (∀ arrival ∈ m.arrivalsOf pkts, _))
  | .callback tick => inferInstanceAs
      (Decidable (_ → ∀ e ∈ (m.step (.callback tick)).1.emissions, _))
  | .consume _ => isTrue trivial
  | .reset => isFalse not_false

/-- An adaptive policy that starts with the first packet. -/
def eagerConfig : JitterConfig SoftFloat := ⟨0, 400, 0, 0.0, none⟩

/-- A raw packet of one sample frame of zeros. -/
def rawZero (seqNum : UInt64) (arrivalTime : Instant) : RawPacket :=
  ⟨seqNum, List.replicate 8 0, arrivalTime, true, false, by decide⟩

/-- A reordered arrival, a packet behind the playhead and a starvation. -/
def reorderedInputs : List (Input SoftFloat) :=
  [.ingest [rawZero 5 0, rawZero 7 1, rawZero 6 2], .callback (steadyTick 3), .consume 960,
    .ingest [rawZero 4 4], .callback (steadyTick 5), .consume 960, .callback (steadyTick 6)]

theorem ledger_closes_iff_reorderedInputs :
    arrivals ((machine (Codec.unfed SoftFloat) eagerConfig .ethernet 0).events reorderedInputs)
        ((machine (Codec.unfed SoftFloat) eagerConfig .ethernet 0).run reorderedInputs) =
      accounted
        ((machine (Codec.unfed SoftFloat) eagerConfig .ethernet 0).events reorderedInputs)
        ((machine (Codec.unfed SoftFloat) eagerConfig .ethernet 0).run reorderedInputs) :=
  (ledger_closes_iff _ _ _ _ reorderedInputs (by decide) (by decide +kernel)).mpr
    (by decide +kernel)

/-- One packet arrives twice before it is played. -/
def duplicatedInputs : List (Input SoftFloat) := [.ingest [rawZero 5 0, rawZero 5 1]]

theorem not_ledger_closes_duplicatedInputs : ¬ ∀ inputs : List (Input SoftFloat),
    (∀ i ∈ inputs, i.LeavesRoom) →
    (∀ e ∈ (machine (Codec.unfed SoftFloat) unbufferedConfig .ethernet 0).events inputs,
      e.before.Uninterrupted e.input) →
    arrivals ((machine (Codec.unfed SoftFloat) unbufferedConfig .ethernet 0).events inputs)
        ((machine (Codec.unfed SoftFloat) unbufferedConfig .ethernet 0).run inputs) =
      accounted ((machine (Codec.unfed SoftFloat) unbufferedConfig .ethernet 0).events inputs)
        ((machine (Codec.unfed SoftFloat) unbufferedConfig .ethernet 0).run inputs) := by
  intro h
  exact absurd (h duplicatedInputs (by decide) (by decide +kernel)) (by decide +kernel)

end Run

end JitterBufferManager

end Gemacast.Jitter
