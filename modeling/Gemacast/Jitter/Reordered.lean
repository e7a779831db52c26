import Gemacast.Core.LawfulBinary32
import Gemacast.Core.Machine
import Gemacast.Jitter.Stats

/-!
# Reordered packets and the arrival statistics

A packet behind the last one is kept out of the jitter computations, but the next packet is
measured from it all the same. Two runs are compared, with the packet and without it: whatever
follows, they agree exactly when the packet leaves the anchors of the measurement in place.
-/

namespace Gemacast.Jitter

open Gemacast.Core

/-- The arrival of one packet. -/
structure Arrival where
  /-- The sequence number. -/
  seqNum : UInt64
  /-- The instant of the arrival. -/
  arrivalTime : Instant

namespace JitterStats

variable {F : Type}

section Counter

variable (s : JitterStats F) (k : ℕ)

/-- The statistics with another count of arrivals. -/
def withCount (s : JitterStats F) (k : ℕ) : JitterStats F := { s with arrivalCount := k }

@[simp] theorem withCount_withCount (m : ℕ) : (s.withCount k).withCount m = s.withCount m := rfl

variable [Binary32 F]

/-- The counter enters no other statistic. -/
theorem updateIatHistogram_withCount (delayFrames : F) :
    (s.withCount k).updateIatHistogram delayFrames =
      (s.updateIatHistogram delayFrames).withCount k := by
  unfold updateIatHistogram
  split <;> rfl

theorem rotateGapBuckets_withCount (steps : ℕ) :
    (s.withCount k).rotateGapBuckets steps = (s.rotateGapBuckets steps).withCount k := by
  induction steps generalizing s with
  | zero => rfl
  | succ steps ih =>
    exact ih { s with
      gapBucketIdx := s.gapBucketIdx + 1
      gapBuckets := Function.update s.gapBuckets (s.gapBucketIdx + 1) 0.0 }

theorem recordGap_withCount (gapFrames : F) (arrivalTime : Instant) :
    (s.withCount k).recordGap gapFrames arrivalTime =
      (s.recordGap gapFrames arrivalTime).withCount k := by
  have hsame : (s.withCount k).gapBucketStart = s.gapBucketStart := rfl
  unfold recordGap
  rw [hsame]
  cases s.gapBucketStart with
  | none => rfl
  | some start =>
    dsimp only
    rw [rotateGapBuckets_withCount]
    split <;> rfl

theorem expireBurst_withCount (arrivalTime : Instant) :
    (s.withCount k).expireBurst arrivalTime = (s.expireBurst arrivalTime).withCount k := by
  unfold expireBurst
  symm
  exact apply_ite (withCount · k) _ _ _

theorem completeCluster_withCount (arrivalTime : Instant) :
    (s.withCount k).completeCluster arrivalTime = (s.completeCluster arrivalTime).withCount k := by
  unfold completeCluster
  symm
  exact apply_ite (withCount · k) _ _ _

theorem trackCluster_withCount (iatActual : F) (arrivalTime : Instant) :
    (s.withCount k).trackCluster iatActual arrivalTime =
      (s.trackCluster iatActual arrivalTime).withCount k := by
  unfold trackCluster
  rw [completeCluster_withCount]
  split
  · rfl
  · split <;> rfl

theorem trackCleanStreak_withCount (jitterFrames : F) :
    (s.withCount k).trackCleanStreak jitterFrames =
      (s.trackCleanStreak jitterFrames).withCount k := by
  unfold trackCleanStreak
  dsimp only
  change (if jitterFrames < s.cleanThreshold then _ else
    if s.cleanThreshold * 2.0 < jitterFrames then _ else _) = _
  split
  · rfl
  · split <;> rfl

theorem trackMacroSpike_withCount (jitterFrames : F) (arrivalTime : Instant) :
    (s.withCount k).trackMacroSpike jitterFrames arrivalTime =
      (s.trackMacroSpike jitterFrames arrivalTime).withCount k := by
  have hsame : (s.withCount k).lastMacroSpike = s.lastMacroSpike := rfl
  unfold trackMacroSpike
  rw [hsame]
  split
  · cases s.lastMacroSpike with
    | none => rfl
    | some lastSpike =>
      symm
      exact apply_ite (withCount · k) _ _ _
  · rfl

theorem observeForward_withCount (seqDiff : ℕ) (elapsed : Duration) (arrivalTime : Instant) :
    (s.withCount k).observeForward seqDiff elapsed arrivalTime =
      (s.observeForward seqDiff elapsed arrivalTime).withCount k := by
  unfold observeForward
  dsimp only
  have hdelay : ∀ iatDelay, (s.withCount k).updateDelayHistory iatDelay =
      (s.updateDelayHistory iatDelay).withCount k := fun _ => rfl
  have hrelative : ∀ s : JitterStats F, (s.withCount k).relativePacketArrivalDelay =
      s.relativePacketArrivalDelay := fun _ => rfl
  have hjitter : ∀ (s : JitterStats F) (jitterFrames : F),
      (s.withCount k).trackJitter jitterFrames = (s.trackJitter jitterFrames).withCount k :=
    fun _ _ => rfl
  rw [hdelay, hrelative, updateIatHistogram_withCount, recordGap_withCount,
    expireBurst_withCount, trackCluster_withCount, trackCleanStreak_withCount, hjitter,
    trackMacroSpike_withCount]

/-- A packet is observed and accepted the same whatever the counter. -/
theorem observe_withCount (seqNum : UInt64) (arrivalTime : Instant) :
    ∃ m, ((s.withCount k).observe seqNum arrivalTime).1 =
      (s.observe seqNum arrivalTime).1.withCount m := by
  have hsame : (s.withCount k).forwardOf seqNum = s.forwardOf seqNum := rfl
  unfold observe
  rw [hsame]
  cases s.forwardOf seqNum with
  | none => exact ⟨k + 1, rfl⟩
  | some forward =>
    dsimp only
    split_ifs with hnear
    · cases arrivalTime.checkedDurationSince forward.2 with
      | none => exact ⟨k, rfl⟩
      | some elapsed =>
        refine ⟨k + 1, ?_⟩
        dsimp only
        rw [observeForward_withCount]
        rfl
    · exact ⟨k + 1, rfl⟩

end Counter

section History

variable (s : JitterStats F)

/-- The excess stands last in the history. -/
theorem updateDelayHistory_getLast (iatDelay : F) :
    (s.updateDelayHistory iatDelay).delayHistory.getLast? = some iatDelay := by
  unfold updateDelayHistory
  dsimp only
  split_ifs with hfull
  · cases hhistory : s.delayHistory with
    | nil =>
      rw [hhistory] at hfull
      exact absurd hfull (by simp [delayHistoryPackets])
    | cons first rest => rw [List.cons_append, List.tail_cons, List.getLast?_concat]
  · exact List.getLast?_concat

variable [Binary32 F]

theorem updateIatHistogram_delayHistory (delayFrames : F) :
    (s.updateIatHistogram delayFrames).delayHistory = s.delayHistory := by
  unfold updateIatHistogram
  split <;> rfl

theorem rotateGapBuckets_delayHistory (steps : ℕ) :
    (s.rotateGapBuckets steps).delayHistory = s.delayHistory := by
  induction steps generalizing s with
  | zero => rfl
  | succ steps ih => exact ih _

theorem recordGap_delayHistory (gapFrames : F) (arrivalTime : Instant) :
    (s.recordGap gapFrames arrivalTime).delayHistory = s.delayHistory := by
  unfold recordGap
  dsimp only
  split
  · rfl
  · split
    · exact s.rotateGapBuckets_delayHistory _
    · rfl

theorem expireBurst_delayHistory (arrivalTime : Instant) :
    (s.expireBurst arrivalTime).delayHistory = s.delayHistory := by
  unfold expireBurst
  split <;> rfl

theorem completeCluster_delayHistory (arrivalTime : Instant) :
    (s.completeCluster arrivalTime).delayHistory = s.delayHistory := by
  unfold completeCluster
  split <;> rfl

theorem trackCluster_delayHistory (iatActual : F) (arrivalTime : Instant) :
    (s.trackCluster iatActual arrivalTime).delayHistory = s.delayHistory := by
  unfold trackCluster
  split
  · rfl
  · split
    · exact s.completeCluster_delayHistory arrivalTime
    · rfl

theorem trackCleanStreak_delayHistory (jitterFrames : F) :
    (s.trackCleanStreak jitterFrames).delayHistory = s.delayHistory := by
  unfold trackCleanStreak
  dsimp only
  split
  · rfl
  · split <;> rfl

theorem trackMacroSpike_delayHistory (jitterFrames : F) (arrivalTime : Instant) :
    (s.trackMacroSpike jitterFrames arrivalTime).delayHistory = s.delayHistory := by
  unfold trackMacroSpike
  split
  · split
    · rfl
    · dsimp only
      split <;> rfl
  · rfl

/-- A measured packet leaves its excess in the history. -/
theorem observeForward_delayHistory (seqDiff : ℕ) (elapsed : Duration) (arrivalTime : Instant) :
    (s.observeForward seqDiff elapsed arrivalTime).delayHistory =
      (s.updateDelayHistory (Binary32.ofNat elapsed.asMillis / frameMs -
        Binary32.ofNat seqDiff)).delayHistory := by
  unfold observeForward
  dsimp only
  rw [trackMacroSpike_delayHistory]
  change (trackCleanStreak _ _).delayHistory = _
  rw [trackCleanStreak_delayHistory, trackCluster_delayHistory, expireBurst_delayHistory,
    recordGap_delayHistory, updateIatHistogram_delayHistory]

end History

section Arrivals

variable [Binary32 F]

/-- The statistics of a stream of arrivals. -/
def arrivals : Machine (JitterStats F) Arrival Bool where
  init := new
  step s p := s.observe p.seqNum p.arrivalTime

/-- What the arrivals have taught: every statistic, without the anchors of the next
measurement and without the counter. -/
def statistics (s : JitterStats F) : JitterStats F :=
  { s with lastIngestSeq := none, lastNetworkArrival := none, arrivalCount := 0 }

/-- The packet is not above the last one accepted so far. -/
def Reordered (before : List Arrival) (p : Arrival) : Prop :=
  ∃ e ∈ (arrivals (F := F)).events before, e.output = true ∧ p.seqNum ≤ e.input.seqNum

/-- The next measurement starts from the same packet after it: it repeats the anchors, or
nothing can be ahead of its number, or the clock ran backwards and it is dropped. -/
def LeavesAnchors (s : JitterStats F) (p : Arrival) : Prop :=
  s.lastIngestSeq = some p.seqNum ∧
      (s.lastNetworkArrival = some p.arrivalTime ∨ p.seqNum.toNat = 2 ^ 64 - 1) ∨
    ∃ seqDiff lastTime, s.forwardOf p.seqNum = some (seqDiff, lastTime) ∧ seqDiff < 1000 ∧
      p.arrivalTime < lastTime

/-- Runs that differ in the counter only go on to do so. -/
theorem runFrom_withCount (s : JitterStats F) (k : ℕ) (after : List Arrival) :
    ∃ m, arrivals.runFrom (s.withCount k) after = (arrivals.runFrom s after).withCount m := by
  induction after generalizing s k with
  | nil => exact ⟨k, rfl⟩
  | cons p after ih =>
    obtain ⟨m, hm⟩ := s.observe_withCount k p.seqNum p.arrivalTime
    obtain ⟨m', hm'⟩ := ih (s.observe p.seqNum p.arrivalTime).1 m
    refine ⟨m', ?_⟩
    rw [Machine.runFrom_cons, Machine.runFrom_cons]
    change arrivals.runFrom ((s.withCount k).observe p.seqNum p.arrivalTime).1 after = _
    rw [hm, hm']
    rfl

/-- A packet is dropped, or accepted as the anchor of the next one. -/
theorem observe_cases (s : JitterStats F) (seqNum : UInt64) (arrivalTime : Instant) :
    s.observe seqNum arrivalTime = (s, false) ∨
      ∃ s' : JitterStats F, s.observe seqNum arrivalTime =
        (s'.acceptArrival seqNum arrivalTime, true) := by
  unfold observe
  cases s.forwardOf seqNum with
  | none => exact Or.inr ⟨s, rfl⟩
  | some forward =>
    dsimp only
    split_ifs
    · cases arrivalTime.checkedDurationSince forward.2 with
      | none => exact Or.inl rfl
      | some elapsed => exact Or.inr ⟨_, rfl⟩
    · exact Or.inr ⟨s, rfl⟩

/-- A dropped packet is ahead of the last one, and earlier. -/
theorem dropped_early (s : JitterStats F) {seqNum : UInt64} {arrivalTime : Instant}
    (h : (s.observe seqNum arrivalTime).2 = false) :
    ∃ seqDiff lastTime, s.forwardOf seqNum = some (seqDiff, lastTime) ∧ seqDiff < 1000 ∧
      arrivalTime < lastTime := by
  unfold observe at h
  cases hforward : s.forwardOf seqNum with
  | none =>
    rw [hforward] at h
    exact absurd h.symm Bool.false_ne_true
  | some forward =>
    rw [hforward] at h
    dsimp only at h
    split_ifs at h with hnear
    refine ⟨forward.1, forward.2, rfl, hnear, ?_⟩
    unfold Instant.checkedDurationSince at h
    split_ifs at h with hlate
    exact Nat.lt_of_not_le hlate

/-- After an accepted packet there are anchors. -/
theorem anchors_of_accepted (before : List Arrival)
    (h : ∃ e ∈ (arrivals (F := F)).events before, e.output = true) :
    ∃ lastSeq lastTime, ((arrivals (F := F)).run before).lastIngestSeq = some lastSeq ∧
      ((arrivals (F := F)).run before).lastNetworkArrival = some lastTime := by
  revert h
  refine (arrivals (F := F)).history_invariant
    (I := fun h s => (∃ e ∈ h, e.output = true) → ∃ lastSeq lastTime,
      s.lastIngestSeq = some lastSeq ∧ s.lastNetworkArrival = some lastTime)
    (p := fun _ _ => True) ?_ ?_ fun _ _ _ _ => trivial
  · rintro ⟨e, he, -⟩
    exact absurd he List.not_mem_nil
  · rintro h s p ih - ⟨e, he, haccepted⟩
    change ∃ lastSeq lastTime, (s.observe p.seqNum p.arrivalTime).1.lastIngestSeq = _ ∧
      (s.observe p.seqNum p.arrivalTime).1.lastNetworkArrival = _
    rcases s.observe_cases p.seqNum p.arrivalTime with hdropped | ⟨s', hkept⟩
    · rw [hdropped]
      rcases List.mem_append.mp he with hold | hnew
      · exact ih ⟨e, hold, haccepted⟩
      · rw [List.mem_singleton.mp hnew] at haccepted
        change (s.observe p.seqNum p.arrivalTime).2 = true at haccepted
        rw [hdropped] at haccepted
        exact absurd haccepted Bool.false_ne_true
    · rw [hkept]
      exact ⟨_, _, rfl, rfl⟩

omit [Binary32 F] in
/-- A packet right after the last one is measured against it. -/
theorem forwardOf_next {s : JitterStats F} {lastSeq n : UInt64} {lastTime : Instant}
    (hseq : s.lastIngestSeq = some lastSeq) (htime : s.lastNetworkArrival = some lastTime)
    (hn : n.toNat = lastSeq.toNat + 1) : s.forwardOf n = some (1, lastTime) := by
  have hdiff : (n - lastSeq).toNat = 1 := by
    rw [UInt64.toNat_sub_of_le _ _ (UInt64.le_iff_toNat_le.mpr (by omega))]
    omega
  unfold forwardOf
  rw [hseq, htime]
  dsimp only
  rw [if_pos (UInt64.lt_iff_toNat_lt.mpr (by omega)), hdiff]

/-- A packet that is not ahead of the last one is not. -/
theorem observe_behind {s : JitterStats F} {lastSeq n : UInt64}
    (hseq : s.lastIngestSeq = some lastSeq) (hn : n ≤ lastSeq) (now : Instant) :
    s.observe n now = (s.acceptArrival n now, true) := by
  have hforward : s.forwardOf n = none := by
    unfold forwardOf
    rw [hseq]
    cases s.lastNetworkArrival with
    | none => rfl
    | some lastTime => exact if_neg (UInt64.not_lt.mpr hn)
  unfold observe
  rw [hforward]

/-- A packet that leaves the anchors can be deleted. -/
theorem statistics_of_leavesAnchors {s : JitterStats F} {p : Arrival} (h : s.LeavesAnchors p)
    (after : List Arrival) :
    (arrivals.runFrom (s.observe p.seqNum p.arrivalTime).1 after).statistics =
      (arrivals.runFrom s after).statistics := by
  rcases h with ⟨hseq, htime⟩ | ⟨seqDiff, lastTime, hforward, hnear, hearly⟩
  · rw [observe_behind hseq (UInt64.le_refl _)]
    rcases htime with htime | hmax
    · have hsame : s.acceptArrival p.seqNum p.arrivalTime = s.withCount (s.arrivalCount + 1) := by
        unfold acceptArrival withCount
        rw [← hseq, ← htime]
      obtain ⟨m, hm⟩ := runFrom_withCount s (s.arrivalCount + 1) after
      rw [hsame, hm]
      rfl
    · cases after with
      | nil => rfl
      | cons x after =>
        have hlast : x.seqNum ≤ p.seqNum := by
          rw [UInt64.le_iff_toNat_le, hmax]
          exact Nat.le_sub_one_of_lt x.seqNum.toNat_lt
        have hwith : ((s.acceptArrival p.seqNum p.arrivalTime).observe x.seqNum
            x.arrivalTime).1 = (s.observe x.seqNum x.arrivalTime).1.withCount
              (s.arrivalCount + 2) := by
          rw [observe_behind hseq hlast, observe_behind rfl hlast]
          rfl
        obtain ⟨m, hm⟩ := runFrom_withCount (s.observe x.seqNum x.arrivalTime).1
          (s.arrivalCount + 2) after
        rw [Machine.runFrom_cons, Machine.runFrom_cons]
        change (arrivals.runFrom ((s.acceptArrival p.seqNum p.arrivalTime).observe x.seqNum
          x.arrivalTime).1 after).statistics = _
        rw [hwith, hm]
        rfl
  · have hdropped : s.observe p.seqNum p.arrivalTime = (s, false) := by
      unfold observe
      rw [hforward]
      dsimp only
      rw [if_pos hnear]
      unfold Instant.checkedDurationSince
      rw [if_neg (Nat.not_le.mpr hearly)]
    rw [hdropped]

end Arrivals

section Measured

variable {s : JitterStats SoftFloat} {lastSeq n : UInt64} {lastTime now : Instant}

/-- The excess of a packet one number ahead that arrives after the given span. -/
def excess (elapsed : Duration) : SoftFloat :=
  Binary32.ofNat elapsed.asMillis / frameMs - Binary32.ofNat 1

/-- A packet right after the last one leaves its excess in the history. -/
theorem observe_next (hseq : s.lastIngestSeq = some lastSeq)
    (htime : s.lastNetworkArrival = some lastTime) (hn : n.toNat = lastSeq.toNat + 1)
    (hnow : lastTime ≤ now) :
    (s.observe n now).1.delayHistory.getLast? = some (excess (now - lastTime)) := by
  unfold observe
  rw [forwardOf_next hseq htime hn]
  dsimp only
  rw [if_pos (by decide)]
  unfold Instant.checkedDurationSince
  rw [if_pos hnow]
  change (s.observeForward 1 (now - lastTime) now).delayHistory.getLast? = _
  rw [observeForward_delayHistory]
  exact updateDelayHistory_getLast _ _

/-- It is dropped when the clock ran backwards. -/
theorem observe_early (hseq : s.lastIngestSeq = some lastSeq)
    (htime : s.lastNetworkArrival = some lastTime) (hn : n.toNat = lastSeq.toNat + 1)
    (hnow : now < lastTime) : (s.observe n now).1 = s := by
  unfold observe
  rw [forwardOf_next hseq htime hn]
  dsimp only
  rw [if_pos (by decide)]
  unfold Instant.checkedDurationSince
  rw [if_neg (Nat.not_le.mpr hnow)]

end Measured

section Deletion

/-- Excesses of no time at all and of one millisecond differ. -/
theorem excess_ne : excess 0 ≠ excess (Duration.fromMillis 1) := by decide +kernel

/-- Nothing but whole milliseconds counts. -/
theorem excess_of_short {elapsed : ℕ} (h : elapsed < Duration.fromMillis 1) :
    excess elapsed = excess 0 := by
  have hzero : Duration.asMillis elapsed = Duration.asMillis 0 := by
    unfold Duration.asMillis
    unfold Duration.fromMillis at h
    omega
  unfold excess
  rw [hzero]

variable {s : JitterStats SoftFloat} {p : Arrival} {lastSeq n : UInt64} {lastTime : ℕ}

/-- A number ahead of one that is not the last. -/
theorem exists_next (lastSeq : UInt64) (h : lastSeq.toNat + 1 < 2 ^ 64) :
    ∃ n : UInt64, n.toNat = lastSeq.toNat + 1 :=
  ⟨UInt64.ofNat (lastSeq.toNat + 1), UInt64.toNat_ofNat_of_lt h⟩

/-- Two instants are told apart by the packet after them. -/
theorem not_same_next {s s' : JitterStats SoftFloat} {time time' : ℕ}
    (hseq : s.lastIngestSeq = some lastSeq) (htime : s.lastNetworkArrival = some time)
    (hseq' : s'.lastIngestSeq = some lastSeq) (htime' : s'.lastNetworkArrival = some time')
    (hhistory : s'.delayHistory = s.delayHistory) (hn : n.toNat = lastSeq.toNat + 1)
    (hless : time < time') :
    ∃ now, (s.observe n now).1.delayHistory ≠ (s'.observe n now).1.delayHistory := by
  by_contra hsame
  have hsame : ∀ now, (s.observe n now).1.delayHistory = (s'.observe n now).1.delayHistory :=
    fun now => not_not.mp fun hne => hsame ⟨now, hne⟩
  -- at the earlier instant one run drops the packet and the other measures no time at all
  have hlast : s.delayHistory.getLast? = some (excess 0) := by
    have hfirst := observe_next hseq htime hn (le_refl time)
    rw [hsame, observe_early hseq' htime' hn hless, hhistory, Nat.sub_self] at hfirst
    exact hfirst
  -- a millisecond later one run measures it and the other less
  have hnext := observe_next hseq htime hn (Nat.le_add_right time (Duration.fromMillis 1))
  rw [Nat.add_sub_cancel_left, hsame] at hnext
  by_cases hlate : time' ≤ time + Duration.fromMillis 1
  · rw [observe_next hseq' htime' hn hlate, excess_of_short (by omega)] at hnext
    exact excess_ne (Option.some.inj hnext)
  · rw [observe_early hseq' htime' hn (Nat.lt_of_not_le hlate), hhistory, hlast] at hnext
    exact excess_ne (Option.some.inj hnext)

/-- A packet measured in one run only is told apart. -/
theorem not_same_behind {s s' : JitterStats SoftFloat} {lastSeq' : UInt64} {time : ℕ}
    (hseq : s.lastIngestSeq = some lastSeq) (htime : s.lastNetworkArrival = some time)
    (hseq' : s'.lastIngestSeq = some lastSeq') (hn : n.toNat = lastSeq.toNat + 1)
    (hbehind : n ≤ lastSeq') :
    ∃ now, (s.observe n now).1.delayHistory ≠ (s'.observe n now).1.delayHistory := by
  by_contra hsame
  have hkept : ∀ now, (s.observe n now).1.delayHistory = s'.delayHistory := by
    intro now
    have heq := not_not.mp fun hne => hsame ⟨now, hne⟩
    rw [heq, observe_behind hseq' hbehind]
    rfl
  have hfirst := observe_next hseq htime hn (le_refl time)
  have hnext := observe_next hseq htime hn (Nat.le_add_right time (Duration.fromMillis 1))
  rw [hkept, Nat.sub_self] at hfirst
  rw [hkept, Nat.add_sub_cancel_left] at hnext
  exact excess_ne (Option.some.inj (hfirst.symm.trans hnext))

/-- Otherwise a packet can follow whose history tells whether it was there. -/
theorem exists_not_same (hseq : s.lastIngestSeq = some lastSeq)
    (htime : s.lastNetworkArrival = some lastTime) (h : ¬s.LeavesAnchors p) :
    ∃ n now, (((s.observe p.seqNum p.arrivalTime).1.observe n now).1).delayHistory ≠
      (s.observe n now).1.delayHistory := by
  rcases lt_trichotomy p.seqNum.toNat lastSeq.toNat with hless | heq | hmore
  · have hobserve := observe_behind hseq (UInt64.le_iff_toNat_le.mpr hless.le)
      p.arrivalTime
    have hroom := lastSeq.toNat_lt
    obtain ⟨n, hn⟩ := exists_next p.seqNum (by omega)
    obtain ⟨now, hne⟩ := not_same_behind
      (s := s.acceptArrival p.seqNum p.arrivalTime) rfl rfl hseq hn
      (UInt64.le_iff_toNat_le.mpr (by omega))
    exact ⟨n, now, by rw [hobserve]; exact hne⟩
  · have hsame : p.seqNum = lastSeq := UInt64.toNat_inj.mp heq
    have hobserve := observe_behind hseq (UInt64.le_iff_toNat_le.mpr heq.le)
      p.arrivalTime
    have hmoved : ¬lastTime = p.arrivalTime ∧ ¬p.seqNum.toNat = 2 ^ 64 - 1 := by
      rw [← not_or]
      intro hstays
      refine h (Or.inl ⟨hseq.trans (congrArg some hsame.symm), hstays.imp_left fun ht => ?_⟩)
      rw [htime, ht]
    have hroom := lastSeq.toNat_lt
    obtain ⟨n, hn⟩ := exists_next lastSeq (by omega)
    have hseq' : (s.acceptArrival p.seqNum p.arrivalTime).lastIngestSeq = some lastSeq :=
      congrArg some hsame
    rcases Nat.lt_or_gt_of_ne hmoved.1 with hlate | hearly
    · obtain ⟨now, hne⟩ := not_same_next hseq htime hseq' rfl rfl hn hlate
      exact ⟨n, now, by rw [hobserve]; exact hne.symm⟩
    · obtain ⟨now, hne⟩ := not_same_next (s := s.acceptArrival p.seqNum p.arrivalTime) hseq' rfl
        hseq htime rfl hn hearly
      exact ⟨n, now, by rw [hobserve]; exact hne⟩
  · obtain ⟨n, hn⟩ := exists_next lastSeq (by
      have hroom := p.seqNum.toNat_lt
      omega)
    have haccepted : (s.observe p.seqNum p.arrivalTime).1.lastIngestSeq = some p.seqNum := by
      rcases s.observe_cases p.seqNum p.arrivalTime with hdropped | ⟨s', hkept⟩
      · exact absurd (Or.inr (s.dropped_early (by rw [hdropped]))) h
      · rw [hkept]
        rfl
    obtain ⟨now, hne⟩ := not_same_behind (s := s) hseq htime haccepted hn
      (UInt64.le_iff_toNat_le.mpr (by omega))
    exact ⟨n, now, hne.symm⟩

/-- A packet that is not above the last one can be deleted from the trace without a trace in the
statistics, whatever follows, exactly when it leaves the anchors of the next measurement. -/
theorem deletable_iff (before : List Arrival) (p : Arrival)
    (h : Reordered (F := SoftFloat) before p) :
    (∀ after, ((arrivals (F := SoftFloat)).run (before ++ p :: after)).statistics =
        ((arrivals (F := SoftFloat)).run (before ++ after)).statistics) ↔
      ((arrivals (F := SoftFloat)).run before).LeavesAnchors p := by
  have hruns : ∀ after, (arrivals (F := SoftFloat)).run (before ++ after) =
      arrivals.runFrom ((arrivals (F := SoftFloat)).run before) after := fun after =>
    Machine.runFrom_append _ _ before after
  simp only [hruns, Machine.runFrom_cons]
  obtain ⟨e, he, haccepted, -⟩ := h
  obtain ⟨lastSeq, lastTime, hseq, htime⟩ := anchors_of_accepted before ⟨e, he, haccepted⟩
  generalize (arrivals (F := SoftFloat)).run before = s at *
  refine ⟨fun hsame => ?_, statistics_of_leavesAnchors⟩
  by_contra hmoved
  obtain ⟨n, now, hne⟩ := exists_not_same hseq htime hmoved
  have hlists := congrArg (fun s => s.delayHistory) (hsame [⟨n, now⟩])
  exact hne hlists

/-- Three packets, the second of them missing. -/
def gappedArrivals : List Arrival := [⟨1, 0⟩, ⟨3, Duration.fromMillis 20⟩]

/-- The missing packet comes late, and the next one is measured from it. -/
theorem not_deletable_gappedArrivals :
    ¬∀ (before : List Arrival) (p : Arrival), Reordered (F := SoftFloat) before p → ∀ after,
      ((arrivals (F := SoftFloat)).run (before ++ p :: after)).statistics =
        ((arrivals (F := SoftFloat)).run (before ++ after)).statistics := by
  intro h
  have hsame := h gappedArrivals ⟨2, Duration.fromMillis 21⟩
    ⟨_, List.mem_cons_of_mem _ List.mem_cons_self, by decide +kernel, by decide⟩
    [⟨4, Duration.fromMillis 30⟩]
  have hlists := congrArg (fun s => s.delayHistory.getLast?) hsame
  revert hlists
  decide +kernel

theorem deletable_iff_gappedArrivals :
    ((arrivals (F := SoftFloat)).run
        (gappedArrivals ++ [⟨3, Duration.fromMillis 20⟩, ⟨4, Duration.fromMillis 30⟩])).statistics =
      ((arrivals (F := SoftFloat)).run
        (gappedArrivals ++ [⟨4, Duration.fromMillis 30⟩])).statistics :=
  (deletable_iff gappedArrivals ⟨3, Duration.fromMillis 20⟩
    ⟨_, List.mem_cons_of_mem _ List.mem_cons_self, by decide +kernel, by decide⟩).mpr
    (Or.inl ⟨rfl, Or.inl rfl⟩) _

end Deletion

end JitterStats

end Gemacast.Jitter
