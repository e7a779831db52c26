import Gemacast.Jitter.PlayheadBound

/-!
# Packets ahead of the playhead

`Sound` asks for numbers that leave room for the capacity in a `u64`. Without that
condition sums of sequence numbers wrap, the playhead goes back, and a skip can leave
packets behind it. `Ahead` is what holds all the same: a stored packet lies at or after the
playhead, or within one window of the last number of a `u64`. So the packet in the slot of
the playhead is never behind it, and no operation drops a packet that another one counts.
-/

namespace Gemacast.Jitter

open Gemacast.Core

namespace JitterBuffer

variable {b b' : JitterBuffer} {p : RawPacket}

/-- What holds of the buffer whatever is inserted into it. -/
structure Ahead (b : JitterBuffer) : Prop where
  /-- Packets sit in the slot of their number. -/
  residue : ∀ {i p}, b.slots i = some p → index p.seqNum = i
  /-- They lie at or after the playhead, or near the last number. -/
  ahead : ∀ {i p}, b.slots i = some p → b.playhead ≤ p.seq ∨ 2 ^ 64 ≤ p.seq + bufferCapacity
  /-- The maintained count is the number of filled slots. -/
  count : b.occupied = Ring.occupancy b.slots
  /-- Nothing is stored before the first packet anchors the playhead. -/
  virgin : b.initialized = false → b.slots = fun _ => none

/-- A slot that an operation leaves filled was not emptied on the way. -/
theorem clearSlots_eq_some {seq : UInt64} {n : ℕ} {i : Fin bufferCapacity}
    (h : (b.clearSlots seq n).slots i = some p) :
    b.slots i = some p ∧ ∀ j < n, index (seq + UInt64.ofNat j) ≠ i := by
  induction n generalizing b seq with
  | zero => exact ⟨h, nofun⟩
  | succ n ih =>
    obtain ⟨hfirst, hrest⟩ := ih h
    rw [clearSlot_slots] at hfirst
    refine ⟨update_none_eq_some hfirst, fun j hj => ?_⟩
    cases j with
    | zero =>
      rintro rfl
      simp at hfirst
    | succ j =>
      have hne := hrest j (by omega)
      have hsum : seq + UInt64.ofNat (j + 1) = seq + 1 + UInt64.ofNat j := by
        rw [UInt64.ofNat_add, UInt64.add_comm (UInt64.ofNat j), ← UInt64.add_assoc]
        rfl
      rwa [hsum]

/-- An advance empties the slot of the playhead, or passes what it must not touch. -/
theorem advanceOne_cases (b : JitterBuffer) :
    b.advanceOne = { b with
        slots := Function.update b.slots (index b.nextPlaySeq) none
        occupied := b.occupied - (if (b.slots (index b.nextPlaySeq)).isSome then 1 else 0)
        nextPlaySeq := b.nextPlaySeq + 1
        cachedMinSeq := none } ∨
      (∀ {p}, b.slots (index b.nextPlaySeq) = some p → p.seqNum ≠ b.nextPlaySeq) ∧
        b.advanceOne = { b with nextPlaySeq := b.nextPlaySeq + 1, cachedMinSeq := none } := by
  unfold JitterBuffer.advanceOne
  cases hs : b.slots (index b.nextPlaySeq) with
  | none => exact Or.inr ⟨nofun, by simp [hs]⟩
  | some p =>
    by_cases heq : p.seqNum = b.nextPlaySeq
    · exact Or.inl (by simp [hs, heq])
    · exact Or.inr ⟨fun hp => Option.some.inj hp ▸ heq, by simp [hs, heq]⟩

/-- An advance removes at most one packet, and adds none. -/
theorem advanceOne_occupied (b : JitterBuffer) :
    b.advanceOne.occupiedCount ≤ b.occupiedCount ∧
      b.occupiedCount ≤ b.advanceOne.occupiedCount + 1 := by
  obtain heq | ⟨-, heq⟩ := b.advanceOne_cases
  · rw [heq]
    unfold occupiedCount
    dsimp only
    split
    · split <;> omega
    · omega
  · rw [heq]
    exact ⟨le_rfl, Nat.le_succ _⟩

namespace Ahead

theorem new : JitterBuffer.new.Ahead := ⟨nofun, nofun, Ring.occupancy_empty.symm, fun _ => rfl⟩

theorem reset : b.reset.Ahead := by
  rw [reset_eq_new]
  exact new

/-- The number of filled slots, before the first packet as well. -/
theorem occupiedCount_eq (h : b.Ahead) : b.occupiedCount = Ring.occupancy b.slots := by
  unfold occupiedCount
  cases hi : b.initialized with
  | true => exact h.count
  | false =>
    rw [h.virgin hi, Ring.occupancy_empty]
    rfl

/-- The packet in the slot of the playhead is not behind it: one of the same residue would
be behind it by a whole window, and not near the last number. -/
theorem slot_playhead (h : b.Ahead) (hp : b.slots (index b.nextPlaySeq) = some p) :
    b.playhead ≤ p.seq := by
  by_contra hbehind
  have hfar := (h.ahead hp).resolve_left hbehind
  have hmod : p.seq % 512 = b.playhead % 512 := congrArg Fin.val (h.residue hp)
  have hlt : b.playhead < 2 ^ 64 := b.nextPlaySeq.toNat_lt
  have hcap := bufferCapacity_eq
  omega

/-- A buffer that stores less and whose playhead went past nothing that is left. -/
theorem of_subset (h : b.Ahead) (hslots : ∀ {i p}, b'.slots i = some p → b.slots i = some p)
    (hahead : ∀ {i p}, b'.slots i = some p → b'.playhead ≤ p.seq ∨ 2 ^ 64 ≤ p.seq + bufferCapacity)
    (hcount : b'.occupied = Ring.occupancy b'.slots) (hi : b'.initialized = b.initialized) :
    b'.Ahead := by
  refine ⟨fun hp => h.residue (hslots hp), hahead, hcount, fun hv => ?_⟩
  funext i
  rw [Option.eq_none_iff_forall_ne_some]
  intro p hp
  have hp' := hslots hp
  rw [h.virgin (hi.symm.trans hv)] at hp'
  nomatch hp'

/-- The next number, or zero after the last one. -/
theorem playhead_succ_le (b : JitterBuffer) : (b.nextPlaySeq + 1).toNat ≤ b.playhead + 1 := by
  rw [UInt64.toNat_add]
  exact Nat.mod_le _ _

/-- A packet that is not the next one is still ahead when the playhead moves by one. -/
theorem ahead_succ (h : b.Ahead) {i : Fin bufferCapacity} (hp : b.slots i = some p)
    (hne : p.seqNum ≠ b.nextPlaySeq) :
    (b.nextPlaySeq + 1).toNat ≤ p.seq ∨ 2 ^ 64 ≤ p.seq + bufferCapacity := by
  refine (h.ahead hp).imp_left fun hle => ?_
  have hsucc := playhead_succ_le b
  have hne' : p.seq ≠ b.playhead := fun heq => hne (UInt64.toNat_inj.mp heq)
  omega

/-- Emptying the slot of the playhead and moving by one. -/
theorem advance (h : b.Ahead) (cache : Option UInt64) :
    Ahead { b with
      slots := Function.update b.slots (index b.nextPlaySeq) none
      occupied := b.occupied - (if (b.slots (index b.nextPlaySeq)).isSome then 1 else 0)
      nextPlaySeq := b.nextPlaySeq + 1
      cachedMinSeq := cache } := by
  refine h.of_subset update_none_eq_some (fun {i p} hp => ?_) ?_ rfl
  · refine h.ahead_succ (update_none_eq_some hp) fun heq => ?_
    have hi : i = index b.nextPlaySeq := by
      rw [← heq]
      exact (h.residue (update_none_eq_some hp)).symm
    subst hi
    simp at hp
  · simp only [Ring.occupancy_clear, h.count]

/-- Moving by one past a slot that holds no packet of the playhead's number. -/
theorem pass (h : b.Ahead) (cache : Option UInt64)
    (hnot : ∀ {p}, b.slots (index b.nextPlaySeq) = some p → p.seqNum ≠ b.nextPlaySeq) :
    Ahead { b with nextPlaySeq := b.nextPlaySeq + 1, cachedMinSeq := cache } := by
  refine h.of_subset id (fun {i p} hp => h.ahead_succ hp fun heq => ?_) h.count rfl
  have hi : i = index b.nextPlaySeq := by
    rw [← heq]
    exact (h.residue hp).symm
  subst hi
  exact hnot hp heq

/-- What a pop of an anchored buffer does: answer the packet of the playhead, pass a slot
that is empty, or pass one whose packet is due later. -/
theorem popNext_cases (h : b.Ahead) (hi : b.initialized = true) :
    (∃ p, b.slots (index b.nextPlaySeq) = some p ∧ p.seqNum = b.nextPlaySeq ∧
        b.popNext = ({ b with
          slots := Function.update b.slots (index b.nextPlaySeq) none
          occupied := b.occupied - 1
          nextPlaySeq := b.nextPlaySeq + 1
          cachedMinSeq := none }, some p)) ∨
      ∃ cache, (∀ {p}, b.slots (index b.nextPlaySeq) = some p → p.seqNum ≠ b.nextPlaySeq) ∧
        b.popNext =
          ({ b with nextPlaySeq := b.nextPlaySeq + 1, cachedMinSeq := cache }, none) := by
  cases hs : b.slots (index b.nextPlaySeq) with
  | none =>
    refine Or.inr ⟨b.cachedMinSeq, nofun, ?_⟩
    simp [JitterBuffer.popNext, hi, hs, Ring.clear_of_none hs]
  | some p =>
    by_cases heq : p.seqNum = b.nextPlaySeq
    · refine Or.inl ⟨p, rfl, heq, ?_⟩
      simp [JitterBuffer.popNext, hi, hs, heq]
    · have hlt : b.nextPlaySeq < p.seqNum := by
        have hle := h.slot_playhead hs
        have hne : p.seq ≠ b.playhead := fun h => heq (UInt64.toNat_inj.mp h)
        exact UInt64.lt_iff_toNat_lt.mpr (by unfold playhead RawPacket.seq at *; omega)
      have hkept : Function.update b.slots (index b.nextPlaySeq) (some p) = b.slots := by
        rw [← hs, Function.update_eq_self]
      refine Or.inr ⟨none, fun hp => Option.some.inj hp ▸ heq, ?_⟩
      simp [JitterBuffer.popNext, hi, hs, heq, hlt, hkept]

theorem popNext (h : b.Ahead) : b.popNext.1.Ahead := by
  cases hi : b.initialized with
  | false =>
    rw [popNext_virgin hi]
    exact h
  | true =>
    obtain ⟨p, hp, -, heq⟩ | ⟨cache, hnot, heq⟩ := h.popNext_cases hi
    · have hadvance := h.advance none
      rw [hp, Option.isSome_some, if_pos rfl] at hadvance
      rw [heq]
      exact hadvance
    · rw [heq]
      exact h.pass cache hnot

/-- A pop removes a packet only when it answers one. -/
theorem popNext_occupied (h : b.Ahead) :
    b.occupiedCount = b.popNext.1.occupiedCount + if b.popNext.2.isSome then 1 else 0 := by
  cases hi : b.initialized with
  | false =>
    rw [popNext_virgin hi]
    rfl
  | true =>
    obtain ⟨p, hp, -, heq⟩ | ⟨cache, hnot, heq⟩ := h.popNext_cases hi
    · have hpos : b.occupied ≠ 0 := by
        rw [h.count, Ne, Ring.occupancy_eq_zero]
        intro hempty
        rw [hempty] at hp
        nomatch hp
      rw [heq]
      simp only [occupiedCount, hi, if_true, Option.isSome_some]
      omega
    · rw [heq]
      rfl

theorem advanceOne (h : b.Ahead) : b.advanceOne.Ahead := by
  obtain heq | ⟨hnot, heq⟩ := b.advanceOne_cases
  · rw [heq]
    exact h.advance none
  · rw [heq]
    exact h.pass none hnot

theorem lowestAvailableSeq (h : b.Ahead) : b.lowestAvailableSeq.1.Ahead := by
  unfold JitterBuffer.lowestAvailableSeq
  split
  · exact h
  · exact ⟨h.residue, h.ahead, h.count, h.virgin⟩

/-- A skip empties the slots of the numbers it passes, unless the end of the window wraps;
then what it passes is near the last number. -/
theorem skipTo (h : b.Ahead) (newSeq : UInt64) : (b.skipTo newSeq).Ahead := by
  have hcap := bufferCapacity_eq
  by_cases hfar : capacity ≤ saturatingSub newSeq b.nextPlaySeq
  · have hslots : (b.skipTo newSeq).slots = fun _ => none := by
      simp only [JitterBuffer.skipTo, if_pos hfar]
    refine h.of_subset ?_ ?_ (skipTo_occupied newSeq h.count) (skipTo_initialized newSeq) <;>
      · intro i p hp
        rw [hslots] at hp
        nomatch hp
  · have hslots : (b.skipTo newSeq).slots = (b.clearSlots b.nextPlaySeq
        ((min newSeq (b.nextPlaySeq + capacity)).toNat - b.nextPlaySeq.toNat)).slots := by
      simp only [JitterBuffer.skipTo, if_neg hfar]
    refine h.of_subset (fun {i p} hp => ?_) (fun {i p} hp => ?_)
      (skipTo_occupied newSeq h.count) (skipTo_initialized newSeq)
    · rw [hslots] at hp
      exact (clearSlots_eq_some hp).1
    · rw [hslots] at hp
      obtain ⟨hold, hleft⟩ := clearSlots_eq_some hp
      refine (h.ahead hold).elim (fun hle => ?_) Or.inr
      rw [skipTo_playhead]
      by_contra hnot
      obtain ⟨hbelow, hroom⟩ := not_or.mp hnot
      -- The sum does not wrap beside a packet that is not near the last number.
      have hsum : (b.nextPlaySeq + capacity).toNat = b.playhead + bufferCapacity :=
        toNat_add_of_lt (by rw [capacity_toNat]; unfold playhead at hle; omega)
      have hdist := UInt64.lt_iff_toNat_lt.mp (UInt64.not_le.mp hfar)
      rw [toNat_saturatingSub, capacity_toNat] at hdist
      refine hleft (p.seq - b.playhead) ?_ ?_
      · rw [toNat_min, hsum]
        unfold playhead at *
        omega
      · have hofNat : (UInt64.ofNat (p.seq - b.playhead)).toNat = p.seq - b.playhead := by
          rw [UInt64.toNat_ofNat']
          exact Nat.mod_eq_of_lt (by omega)
        have hnumber : b.nextPlaySeq + UInt64.ofNat (p.seq - b.playhead) = p.seqNum := by
          apply UInt64.toNat_inj.mp
          rw [toNat_add_of_lt (by rw [hofNat]; unfold playhead at *; omega), hofNat]
          unfold playhead RawPacket.seq at *
          omega
        rw [hnumber]
        exact h.residue hold

theorem fastForward (h : b.Ahead) (nextSeq : UInt64) : (b.fastForward nextSeq).Ahead :=
  h.skipTo nextSeq

theorem makeRoom (h : b.Ahead) (hle : b.playhead ≤ p.seq) :
    (b.makeRoom p).Ahead ∧ (b.makeRoom p).playhead ≤ p.seq ∧
      (b.makeRoom p).initialized = b.initialized := by
  unfold JitterBuffer.makeRoom
  split
  · refine ⟨h.skipTo _, ?_, skipTo_initialized _⟩
    rw [skipTo_playhead, toNat_saturatingSub]
    exact Nat.sub_le _ _
  · exact ⟨h, hle, rfl⟩

/-- Storing a packet that is not behind the playhead. -/
theorem store (h : b.Ahead) (hi : b.initialized = true) (hle : b.playhead ≤ p.seq) :
    (b.store p).Ahead := by
  have hcases : ∀ {i q}, (b.store p).slots i = some q →
      (i = index p.seqNum ∧ q = p) ∨ b.slots i = some q := by
    intro i q hq
    by_cases hslot : i = index p.seqNum
    · subst hslot
      simp only [JitterBuffer.store, Function.update_self, Option.some.injEq] at hq
      exact Or.inl ⟨rfl, hq.symm⟩
    · simp only [JitterBuffer.store, Function.update_of_ne hslot] at hq
      exact Or.inr hq
  refine ⟨fun hq => ?_, fun hq => ?_, ?_, fun hv => ?_⟩
  · obtain ⟨rfl, rfl⟩ | hold := hcases hq
    · rfl
    · exact h.residue hold
  · obtain ⟨rfl, rfl⟩ | hold := hcases hq
    · exact Or.inl hle
    · exact h.ahead hold
  · have hcount := @Ring.occupancy_store _ _ b.slots (index p.seqNum) p
    simp only [JitterBuffer.store, hcount, h.count, Option.isNone_iff_eq_none]
  · simp [JitterBuffer.store, hi] at hv

theorem anchor (h : b.Ahead) : (b.anchor p).Ahead ∧ (b.anchor p).initialized = true := by
  unfold JitterBuffer.anchor
  cases hi : b.initialized with
  | true => exact ⟨h, hi⟩
  | false =>
    have hslots := h.virgin hi
    refine ⟨⟨fun hp => ?_, fun hp => ?_, h.count, fun hv => nomatch hv⟩, rfl⟩ <;>
      · simp only [hslots] at hp
        nomatch hp

/-- The buffer an insertion stores into. -/
theorem opened (h : b.Ahead) (p : RawPacket) :
    (b.opened p).Ahead ∧ (b.opened p).playhead ≤ p.seq ∧ (b.opened p).initialized = true := by
  unfold JitterBuffer.opened
  split
  · have hfresh : Ahead { b.reset with nextPlaySeq := p.seqNum, initialized := true } :=
      ⟨nofun, nofun, Ring.occupancy_empty.symm, nofun⟩
    exact hfresh.makeRoom le_rfl
  · next hnot =>
    obtain ⟨hanchor, hi⟩ := h.anchor (p := p)
    obtain ⟨h1, h2, h3⟩ := hanchor.makeRoom (p := p) (Nat.not_lt.mp (mt seqNum_lt_iff.mpr hnot))
    exact ⟨h1, h2, h3.trans hi⟩

theorem insert (h : b.Ahead) (p : RawPacket) : (b.insert p).1.Ahead := by
  obtain ⟨hopened, hle, hi⟩ := h.opened p
  obtain ⟨-, heq⟩ | ⟨-, heq⟩ | ⟨-, -, heq⟩ := b.insert_cases p
  · rw [heq]
    exact h
  · rw [heq]
    exact hopened.store hi hle
  · rw [heq]
    exact hopened.store hi hle

end Ahead

/-- One operation of the player thread on the buffer. -/
inductive Move : JitterBuffer → JitterBuffer → Prop
  | pop (b : JitterBuffer) : Move b b.popNext.1
  | advance (b : JitterBuffer) : Move b b.advanceOne
  | look (b : JitterBuffer) : Move b b.lowestAvailableSeq.1
  | skip (b : JitterBuffer) (nextSeq : UInt64) : Move b (b.fastForward nextSeq)
  | insert (b : JitterBuffer) (p : RawPacket) : Move b (b.insert p).1
  | reset (b : JitterBuffer) : Move b b.reset

/-- A sequence of operations. -/
abbrev Moves : JitterBuffer → JitterBuffer → Prop := Relation.ReflTransGen Move

theorem Move.ahead (hmove : b.Move b') (h : b.Ahead) : b'.Ahead := by
  cases hmove with
  | pop => exact h.popNext
  | advance => exact h.advanceOne
  | look => exact h.lowestAvailableSeq
  | skip nextSeq => exact h.fastForward nextSeq
  | insert p => exact h.insert p
  | reset => exact .reset

theorem Moves.ahead (hmoves : b.Moves b') (h : b.Ahead) : b'.Ahead := by
  induction hmoves with
  | refl => exact h
  | tail _ hlast ih => exact hlast.ahead ih

end JitterBuffer

namespace JitterBufferManager

variable {F : Type} [Binary32 F] [FrameMark F] {C : Codec F} {m m' : JitterBufferManager C}
  {ctx : FrameContext}

section Settle

theorem flushLoop_moves (m : JitterBufferManager C) (flushTo fuel : ℕ) :
    m.buffer.Moves (m.flushLoop flushTo fuel).buffer := by
  induction fuel generalizing m with
  | zero => exact .refl
  | succ fuel ih =>
    unfold flushLoop
    split
    · have hpop : m.buffer.Moves m.buffer.popNext.1 := .single (.pop _)
      split
      · next buffer pkt heq =>
        rw [heq] at hpop
        exact hpop.trans (ih ({ m with buffer }.capture pkt))
      · next buffer heq =>
        rw [heq] at hpop
        exact (hpop.tail (.advance buffer)).trans (ih { m with buffer := buffer.advanceOne })
    · exact .refl

theorem flushWithCrossfade_moves (m : JitterBufferManager C) (flushTo : ℕ) :
    m.buffer.Moves (m.flushWithCrossfade flushTo).buffer := by
  rw [(m.flushWithCrossfade_loop flushTo).1]
  exact (m.beginFlush flushTo).flushLoop_moves flushTo bufferCapacity

theorem Settles.moves (hsettle : m.Settles m') : m.buffer.Moves m'.buffer := by
  refine hsettle.preserves (P := fun a => m.buffer.Moves a.buffer) (fun a b hstep ha => ?_) .refl
  cases hstep with
  | keep hkeep =>
    rw [hkeep.buffer]
    exact ha
  | flush flushTo => exact ha.trans (a.flushWithCrossfade_moves flushTo)

theorem settleDepth_moves (m : JitterBufferManager C) (tick : Tick F) :
    m.buffer.Moves (m.settleDepth tick).1.buffer := by
  obtain ⟨m', hbefore, hafter, -⟩ := m.settleDepth_cases tick
  have hresolved := hafter.moves
  rw [(m'.resolveTarget_keeps tick).buffer] at hresolved
  exact hbefore.moves.trans hresolved

theorem tryFastForwardOverGap_moves (m : JitterBufferManager C) (ctx : FrameContext) :
    m.buffer.Moves (m.tryFastForwardOverGap ctx).buffer := by
  have hlook : m.buffer.Moves m.buffer.lowestAvailableSeq.1 := .single (.look _)
  unfold tryFastForwardOverGap
  split
  · dsimp only
    split
    · next buffer lo heq =>
      rw [heq] at hlook
      split
      · rw [skipGapTo_buffer]
        exact hlook.tail (.skip buffer lo)
      · exact hlook
    · next buffer heq =>
      rw [heq] at hlook
      split
      · exact hlook.tail (.advance buffer)
      · exact hlook
  · exact .refl

end Settle

section Play

theorem shedLoop_moves {b : JitterBuffer} (h : b.Moves m.buffer) (highLimit n : ℕ) :
    b.Moves (m.shedLoop highLimit n).buffer := by
  induction n generalizing m with
  | zero => exact h
  | succ n ih =>
    unfold shedLoop
    split
    · split
      · next buffer extra heq =>
        have hpop : b.Moves m.buffer.popNext.1 := h.tail (.pop _)
        rw [heq] at hpop
        exact ih hpop
      · exact h
    · exact ih h

theorem stageWindow_moves (m : JitterBufferManager C) :
    m.buffer.Moves m.stageWindow.buffer := by
  unfold stageWindow
  dsimp only
  split
  · split
    · next buffer nextPkt heq =>
      have hpop : m.buffer.Moves m.buffer.popNext.1 := .single (.pop _)
      rw [heq] at hpop
      exact hpop
    · exact .refl
  · exact .refl

theorem Scales.moves {answer : JitterBufferManager C × Bool} (hscales : m.Scales ctx answer) :
    m.buffer.Moves answer.1.buffer := by
  cases hscales with
  | shed highLimit => exact shedLoop_moves (m := m.emit .shed m.decoder.decoded) .refl highLimit _
  | drained isFast rms =>
    have hstage := m.stageWindow_moves
    unfold drain
    dsimp only
    split
    · split <;> exact hstage
    · exact hstage
  | grown => exact .refl
  | stretched rms =>
    unfold stretch
    dsimp only
    split <;> exact .refl
  | left => exact .refl

theorem playPrepared_moves (m : JitterBufferManager C) (ctx : FrameContext) :
    m.buffer.Moves (m.playPrepared ctx).buffer := by
  obtain ⟨f, -, hscales⟩ := m.runTimescale_cases ctx
  obtain ⟨_, _, heq⟩ := m.playPrepared_eq ctx
  rw [heq]
  exact hscales.moves

theorem playNextFrame_moves (hnext : m.buffer.hasNext = true) (ctx : FrameContext) :
    m.buffer.Moves (m.playNextFrame ctx).buffer := by
  obtain ⟨pkt, control, flow, captured, -, -, -, -, hcaptured, -, hplay⟩ :=
    frames_of_hasNext ctx hnext
  have hpopped : captured.maskSplice.buffer = m.buffer.popNext.1 := by
    rw [captured.maskSplice_keeps.1, hcaptured]
    rfl
  have hplayed := captured.maskSplice.playPrepared_moves ctx
  rw [hpopped] at hplayed
  rw [hplay]
  exact .head (.pop _) hplayed

theorem hold_moves (m : JitterBufferManager C) : m.buffer.Moves m.hold.buffer := by
  obtain ⟨-, -, flow, heq⟩ | ⟨flow, heq, -⟩ := m.hold_cases
  · rw [heq]
    exact .single (.reset _)
  · rw [heq, ({ m with flow } : JitterBufferManager C).generatePlc_keeps.1]

theorem handleMissingFrame_moves (m : JitterBufferManager C) (ctx : FrameContext) :
    m.buffer.Moves (m.handleMissingFrame ctx).buffer := by
  obtain ⟨-, flow, heq⟩ | ⟨-, flow, heq, -⟩ := m.handleMissingFrame_cases ctx
  · rw [heq]
    exact .single (.reset _)
  · rw [heq, ({ m with flow } : JitterBufferManager C).generatePlc_keeps.1]

theorem processNextFrame_moves (m : JitterBufferManager C) (tick : Tick F) :
    m.buffer.Moves (m.processNextFrame tick).1.buffer := by
  obtain ⟨-, -, -, heq⟩ | ⟨p, ctx, hp, heq⟩ := m.processNextFrame_cases tick
  · rw [heq]
    exact (m.settleDepth_moves tick).trans (hold_moves _)
  · obtain ⟨g, hg, rfl⟩ := framePoint_cases hp
    have happroach := ((m.settleDepth_moves tick).trans (gapPoint_cases hg).2.moves).trans
      (g.tryFastForwardOverGap_moves ctx)
    rw [heq, playOrMiss]
    split
    · next hnext => exact happroach.trans (playNextFrame_moves hnext ctx)
    · exact happroach.trans (handleMissingFrame_moves _ ctx)

end Play

section Run

theorem ingestPacket_moves (m : JitterBufferManager C) (pkt : RawPacket) :
    m.buffer.Moves (m.ingestPacket pkt).buffer := by
  rw [ingestPacket_buffer]
  split
  · exact .single (.insert _ pkt)
  · exact .refl

theorem ingestPackets_moves (m : JitterBufferManager C) (pkts : List RawPacket) :
    m.buffer.Moves (m.ingestPackets pkts).buffer := by
  unfold ingestPackets
  induction pkts generalizing m with
  | nil => exact .refl
  | cons pkt pkts ih => exact (m.ingestPacket_moves pkt).trans (ih _)

/-- The player thread changes the buffer by the operations of the buffer only. -/
theorem step_moves (m : JitterBufferManager C) (i : Input F) :
    m.buffer.Moves (m.step i).1.buffer := by
  cases i with
  | ingest pkts => exact m.ingestPackets_moves pkts
  | callback tick =>
    simp only [step]
    split
    · exact processNextFrame_moves { m with emissions := [] } tick
    · exact .refl
  | consume take => exact .refl
  | reset => exact .single (.reset _)

/-- In every run no packet is behind the playhead but near the last number of a `u64`. -/
theorem ahead_of_run (C : Codec F) (config : JitterConfig F) (networkLink : NetworkLink)
    (clock : Instant) (inputs : List (Input F)) :
    ((machine C config networkLink clock).run inputs).buffer.Ahead :=
  ((machine C config networkLink clock).invariant (I := fun m => m.buffer.Ahead)
    (p := fun _ _ => True) .new (fun m i h _ => (m.step_moves i).ahead h) fun _ _ => trivial).2

end Run

end JitterBufferManager

end Gemacast.Jitter
