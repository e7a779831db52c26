import Gemacast.Jitter.Phases

/-!
# Gap skips

Every interleaving of insertions, pops, advances and gap skips. The lowest stored
number is read from a cache; an insertion that finds the cache lost fills it with
its own number, which is the minimum only when nothing lower is stored. As long
as no insertion does that wrongly, the answer of the lookup is the minimum and a
gap skip drops nothing.
-/

namespace Gemacast.Jitter

open Gemacast.Core

namespace JitterBuffer

variable {b : JitterBuffer} {Q : RawPacket → Prop}

/-- A filled cache holds the least stored number. -/
def CacheExact (b : JitterBuffer) : Prop :=
  ∀ lo, b.cachedMinSeq = some lo → IsLeast (b.stored : Set ℕ) lo.toNat

/-- The insertion is rejected, finds the cache filled when it stores, or stores a
packet with nothing lower beside it. -/
def CacheSafe (b : JitterBuffer) (p : RawPacket) : Prop :=
  b.IsStale p ∨ (b.opened p).cachedMinSeq ≠ none ∨
    ∀ i, ∀ q ∈ (b.opened p).slots i, p.seq ≤ q.seq

instance (b : JitterBuffer) (p : RawPacket) : Decidable (b.CacheSafe p) :=
  inferInstanceAs (Decidable (_ ∨ _))

/-- With an exact cache the lookup answers the least stored number. -/
theorem CacheExact.lowest (h : b.CacheExact) {lo : UInt64}
    (hlo : b.lowestAvailableSeq.2 = some lo) : IsLeast (b.stored : Set ℕ) lo.toNat := by
  unfold lowestAvailableSeq at hlo
  split at hlo
  · rename_i m hm
    exact h lo (hm.trans hlo)
  · exact scanLowest_isLeast hlo

/-- With an exact cache a number is the answer of the lookup exactly when it is the
least stored one. -/
theorem CacheExact.lowest_iff (h : b.CacheExact) (hs : b.Sound Q) (k : ℕ) :
    b.lowestAvailableSeq.2.map UInt64.toNat = some k ↔ IsLeast (b.stored : Set ℕ) k := by
  constructor
  · rw [Option.map_eq_some_iff]
    rintro ⟨lo, hlo, rfl⟩
    exact h.lowest hlo
  · intro hk
    have hne : b.lowestAvailableSeq.2 ≠ none := by
      rw [ne_eq, hs.lowestAvailableSeq_eq_none]
      exact Finset.ne_empty_of_mem hk.1
    obtain ⟨lo, hlo⟩ := Option.ne_none_iff_exists'.mp hne
    rw [hlo, Option.map_some, (h.lowest hlo).unique hk]

theorem CacheExact.of_none (h : b.cachedMinSeq = none) : b.CacheExact :=
  fun lo hlo => absurd (h.symm.trans hlo) (by simp)

theorem CacheExact.popNext (h : b.CacheExact) (hs : b.Sound Q) : b.popNext.1.CacheExact := by
  cases hi : b.initialized with
  | false => rw [popNext_virgin hi]; exact h
  | true =>
    cases hp : b.packetAt b.playhead with
    | some p => exact .of_none (by rw [hs.wellFormed.popNext_eq hi, hp]; rfl)
    | none =>
      intro lo hlo
      rw [hs.wellFormed.popNext_stored, hs.wellFormed.filter_succ, Finset.erase_eq_self.mpr]
      · exact h lo (by rw [← hlo, hs.wellFormed.popNext_eq hi, hp]; rfl)
      · rw [hs.wellFormed.mem_stored_iff, hp]
        simp

theorem CacheExact.lowestAvailableSeq (h : b.CacheExact) : b.lowestAvailableSeq.1.CacheExact := by
  intro lo hlo
  rw [lowestAvailableSeq_stored]
  exact h.lowest (lowestAvailableSeq_cachedMinSeq.symm.trans hlo)

/-- A safe insertion keeps the cache exact. -/
theorem CacheExact.insert (h : b.CacheExact) (hs : b.Sound Q) {p : RawPacket}
    (hroom : p.seq + bufferCapacity < 2 ^ 64) (hsafe : b.CacheSafe p) :
    (b.insert p).1.CacheExact := by
  rcases hs.insert_cases hroom with ⟨-, heq⟩ | ⟨hstale, heq, hopened, hi, hlo, hhi⟩
  · rw [heq]
    exact h
  · intro lo hcache
    rw [heq, hopened.wellFormed.store_stored hi hlo hhi, Finset.coe_insert]
    rw [heq] at hcache
    simp only [store, Option.some.injEq] at hcache
    subst hcache
    cases hc : (b.opened p).cachedMinSeq with
    | some m =>
      -- The cache was filled, so nothing was skipped and it is that of `b`.
      have hleast : IsLeast ((b.opened p).stored : Set ℕ) m.toNat := by
        rcases b.opened_cachedMinSeq p with hnone | ⟨hsame, hstored⟩
        · exact absurd (hnone.symm.trans hc) (by simp)
        · rw [hstored]
          exact h m (hsame.symm.trans hc)
      have := hleast.insert p.seq
      simpa [RawPacket.seq, min_comm] using this
    | none =>
      -- The packet becomes the cached minimum, which the condition makes true.
      have hbelow := (hsafe.resolve_left hstale).resolve_left (by simp [hc])
      refine ⟨Set.mem_insert _ _, ?_⟩
      rintro k (rfl | hk)
      · exact le_rfl
      · obtain ⟨i, q, hq, rfl⟩ := mem_stored.mp hk
        exact hbelow i q hq

end JitterBuffer

namespace JitterBufferManager

variable {F : Type} [Binary32 F] [FrameMark F] {C : Codec F} {m : JitterBufferManager C}
  {Q : RawPacket → Prop}

/-- One call around a gap. -/
inductive GapOp
  | insert (p : RawPacket)
  | popNext
  | advanceOne
  | skipGap (ctx : FrameContext)

/-- The pipeline as a machine over the calls around a gap. -/
def gapMachine (C : Codec F) (config : JitterConfig F) (networkLink : NetworkLink)
    (clock : Instant) : Machine (JitterBufferManager C) GapOp Unit where
  init := new C config networkLink clock
  step m
    | .insert p => ({ m with buffer := (m.buffer.insert p).1 }, ())
    | .popNext => ({ m with buffer := m.buffer.popNext.1 }, ())
    | .advanceOne => ({ m with buffer := m.buffer.advanceOne }, ())
    | .skipGap ctx => (m.tryFastForwardOverGap ctx, ())

/-- The number of an inserted packet leaves room for the capacity in a `u64`. -/
def GapOp.LeavesRoom : GapOp → Prop
  | .insert p => p.seq + bufferCapacity < 2 ^ 64
  | _ => True

/-- An insertion does not fill a lost cache above a stored number. -/
def GapOp.CacheSafe (b : JitterBuffer) : GapOp → Prop
  | .insert p => b.CacheSafe p
  | _ => True

instance : DecidablePred GapOp.LeavesRoom := fun op =>
  match op with
  | .insert p => inferInstanceAs (Decidable (p.seq + bufferCapacity < 2 ^ 64))
  | .popNext | .advanceOne | .skipGap _ => isTrue trivial

instance (b : JitterBuffer) : DecidablePred (GapOp.CacheSafe b) := fun op =>
  match op with
  | .insert p => inferInstanceAs (Decidable (b.CacheSafe p))
  | .popNext | .advanceOne | .skipGap _ => isTrue trivial

/-- One executed call around a gap. -/
abbrev GapCall (C : Codec F) := Event (JitterBufferManager C) GapOp Unit

/-- After every call the lookup answers the least stored number, or nothing when
nothing is stored, and a gap skip moves the playhead to the least stored number and
drops nothing. -/
structure SkipsOnlyMissing (calls : List (GapCall C)) : Prop where
  lowest : ∀ e ∈ calls, ∀ k, e.after.buffer.lowestAvailableSeq.2.map UInt64.toNat = some k ↔
    IsLeast (e.after.buffer.stored : Set ℕ) k
  empty : ∀ e ∈ calls, e.after.buffer.lowestAvailableSeq.2 = none ↔ e.after.buffer.stored = ∅
  skip : ∀ e ∈ calls, ∀ ctx, e.input = .skipGap ctx →
    e.after.buffer.stored = e.before.buffer.stored ∧
      (e.after.buffer.playhead ≠ e.before.buffer.playhead →
        IsLeast (e.before.buffer.stored : Set ℕ) e.after.buffer.playhead)

/-- A gap skip of a buffer with an exact cache drops nothing. -/
theorem tryFastForwardOverGap_exact (hs : m.buffer.Sound Q) (hc : m.buffer.CacheExact)
    (ctx : FrameContext) :
    (m.tryFastForwardOverGap ctx).buffer.Sound Q ∧
      (m.tryFastForwardOverGap ctx).buffer.CacheExact ∧
      (m.tryFastForwardOverGap ctx).buffer.stored = m.buffer.stored ∧
      ((m.tryFastForwardOverGap ctx).buffer.playhead ≠ m.buffer.playhead →
        IsLeast (m.buffer.stored : Set ℕ) (m.tryFastForwardOverGap ctx).buffer.playhead) := by
  rcases tryFastForwardOverGap_cases hs ctx with
    ⟨-, heq⟩ | ⟨-, lo, hlo, ⟨-, heq⟩ | ⟨-, heq⟩⟩
  · rw [heq]
    exact ⟨hs, hc, rfl, fun hne => absurd rfl hne⟩
  · rw [heq]
    exact ⟨hs.lowestAvailableSeq, hc.lowestAvailableSeq,
      JitterBuffer.lowestAvailableSeq_stored,
      fun hne => absurd JitterBuffer.lowestAvailableSeq_playhead hne⟩
  · have hleast := hc.lowest hlo
    have hmem : lo.toNat ∈ m.buffer.lowestAvailableSeq.1.stored := by
      rw [JitterBuffer.lowestAvailableSeq_stored]
      exact hleast.1
    have hs' := hs.lowestAvailableSeq
    obtain ⟨hle, hfit⟩ := hs'.fastForward_fits hmem
    have hstored : (m.waited.skipGapTo lo).buffer.stored = m.buffer.stored := by
      rw [skipGapTo_buffer]
      change (m.buffer.lowestAvailableSeq.1.fastForward lo).stored = _
      rw [hs'.wellFormed.fastForward_stored hle (Or.inl hfit),
        JitterBuffer.lowestAvailableSeq_stored]
      exact Finset.filter_true_of_mem fun k hk => hleast.2 hk
    rw [heq]
    refine ⟨?_, ?_, hstored, fun _ => ?_⟩
    · rw [skipGapTo_buffer]
      exact hs'.fastForward hmem
    · rw [skipGapTo_buffer]
      exact .of_none rfl
    · rw [skipGapTo_buffer]
      exact hleast

/-- Every permitted call keeps the buffer sound and its cache exact. -/
theorem gapStep_exact {config : JitterConfig F} {networkLink : NetworkLink} {clock : Instant}
    (hs : m.buffer.Sound Q) (hc : m.buffer.CacheExact) {op : GapOp} (hroom : op.LeavesRoom)
    (hQ : ∀ p, op = .insert p → Q p) (hsafe : op.CacheSafe m.buffer) :
    ((gapMachine C config networkLink clock).step m op).1.buffer.Sound Q ∧
      ((gapMachine C config networkLink clock).step m op).1.buffer.CacheExact := by
  cases op with
  | insert p => exact ⟨hs.insert hroom (hQ p rfl), hc.insert hs hroom hsafe⟩
  | popNext => exact ⟨hs.popNext, hc.popNext hs⟩
  | advanceOne => exact ⟨hs.advanceOne, .of_none rfl⟩
  | skipGap ctx =>
    obtain ⟨h1, h2, -, -⟩ := tryFastForwardOverGap_exact hs hc ctx
    exact ⟨h1, h2⟩

/-- As long as no sum of an insertion wraps and no insertion fills a lost cache above
a stored number, gap skips drop only missing packets. -/
theorem gapSkips_of_run (C : Codec F) (config : JitterConfig F) (networkLink : NetworkLink)
    (clock : Instant) (ops : List GapOp) (hroom : ∀ op ∈ ops, op.LeavesRoom)
    (hsafe : ∀ e ∈ (gapMachine C config networkLink clock).events ops,
      e.input.CacheSafe e.before.buffer) :
    SkipsOnlyMissing ((gapMachine C config networkLink clock).events ops) := by
  have hstep : ∀ (m : JitterBufferManager C) (op : GapOp),
      m.buffer.Sound (fun _ => True) ∧ m.buffer.CacheExact →
      op.LeavesRoom ∧ op.CacheSafe m.buffer →
      ((gapMachine C config networkLink clock).step m op).1.buffer.Sound (fun _ => True) ∧
        ((gapMachine C config networkLink clock).step m op).1.buffer.CacheExact :=
    fun m op h hok => gapStep_exact h.1 h.2 hok.1 (fun _ _ => trivial) hok.2
  have hinv := (gapMachine C config networkLink clock).invariant
    ⟨JitterBuffer.Sound.new, .of_none rfl⟩ hstep
    fun e he => ⟨hroom _ (Machine.input_mem _ he), hsafe e he⟩
  refine ⟨fun e he k => ?_, fun e he => ?_, fun e he ctx hinput => ?_⟩
  · obtain ⟨-, hs, hc⟩ := hinv.1 e he
    exact hc.lowest_iff hs k
  · exact (hinv.1 e he).2.1.lowestAvailableSeq_eq_none
  · obtain ⟨⟨hs, hc⟩, -⟩ := hinv.1 e he
    obtain ⟨-, -, hstored, hleast⟩ := tryFastForwardOverGap_exact hs hc ctx
    rw [Machine.eq_eventAt_of_mem _ he, hinput]
    exact ⟨hstored, hleast⟩

/-- A depth policy that pins nothing. -/
def adaptiveConfig : JitterConfig SoftFloat := ⟨20, 400, 0, 0.25, none⟩

/-- The context of a callback on a buffered link. -/
def bufferedContext : FrameContext := ⟨0, 2, 2, 2, false, false⟩

/-- Losses, a reordered arrival and skips, with the lowest packet always inserted
while the cache is filled or the buffer empty. -/
def orderedOps : List GapOp :=
  [.insert (.silent 7 0), .insert (.silent 5 1), .popNext, .skipGap bufferedContext,
    .skipGap bufferedContext, .skipGap bufferedContext, .popNext, .advanceOne,
    .insert (.silent 12 2), .insert (.silent 11 3), .skipGap bufferedContext]

theorem gapSkips_of_run_orderedOps :
    SkipsOnlyMissing
      ((gapMachine (Codec.unfed SoftFloat) adaptiveConfig .ethernet 0).events orderedOps) :=
  gapSkips_of_run _ _ _ _ orderedOps (by decide) (by decide +kernel)

/-- A pop loses the cached minimum, and the next arrival takes its place above the
packets still stored. -/
def lateOps : List GapOp :=
  [.insert (.silent 5 0), .insert (.silent 8 1), .insert (.silent 9 2), .popNext,
    .insert (.silent 10 3), .skipGap bufferedContext, .skipGap bufferedContext,
    .skipGap bufferedContext]

theorem not_skipsOnlyMissing_lateOps : ¬ ∀ ops : List GapOp, (∀ op ∈ ops, op.LeavesRoom) →
    SkipsOnlyMissing
      ((gapMachine (Codec.unfed SoftFloat) adaptiveConfig .ethernet 0).events ops) := by
  intro h
  have hskip := (h lateOps (by decide)).skip _ (List.get_mem _ ⟨7, by decide +kernel⟩)
    bufferedContext rfl
  have hpresent : 8 ∈ (((gapMachine (Codec.unfed SoftFloat) adaptiveConfig .ethernet 0).events
      lateOps).get ⟨7, by decide +kernel⟩).before.buffer.stored := by decide +kernel
  rw [← hskip.1] at hpresent
  exact absurd hpresent (by decide +kernel)

end JitterBufferManager

end Gemacast.Jitter
